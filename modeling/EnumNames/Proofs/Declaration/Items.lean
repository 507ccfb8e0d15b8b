import EnumNames.Declaration.Attribute
import EnumNames.Proofs.Declaration.Locality
/-!
# Lists of items

A list of items is read item by item, and what was read so far is all that one item leaves to the
next. So a list that is read, with a comma at its end, can stand in front of further items: these
are read as they would be on their own, with what is known after the list. That is so because an item
takes its tokens whatever follows its end, and its last token is not the comma behind it.
-/
namespace EnumNames.Declaration

/-- Of two steps without fault the first has none, and the second goes on with what it gives. -/
theorem exists_of_bind_eq_ok {α β : Type} {first : Except Fault α} {next : α → Except Fault β}
    {result : β} (made : first >>= next = .ok result) :
    ∃ middle, first = .ok middle ∧ next middle = .ok result := by
  cases first with
  | error fault => cases made
  | ok middle => exact ⟨middle, rfl, made⟩

/-- Whether the token stands between two items. -/
def Token.separates : Token → Bool
  | .mark ',' _ => true
  | _ => false

/-- An item can begin behind these tokens: they are none, or a comma is the last of them. -/
def OpensItem (front : List Token) : Prop := ∀ token ∈ front.getLast?, token.separates

/-- An item can end in front of these tokens: they are none, or a comma is the first of them. -/
def ClosesItem (rest : List Token) : Prop := ∀ token ∈ rest.head?, token.separates

/-- An item ends where nothing is left or a comma is next. -/
theorem closesItem_iff {rest : List Token} :
    ClosesItem rest ↔ rest = [] ∨ ∃ joint later, rest = .mark ',' joint :: later := by
  constructor
  · intro closes
    match rest with
    | [] => exact .inl rfl
    | token :: later =>
      have separates : token.separates := closes token rfl
      unfold Token.separates at separates
      split at separates
      · exact .inr ⟨_, later, rfl⟩
      · exact absurd separates Bool.false_ne_true
  · rintro (rfl | ⟨joint, later, rfl⟩) token first
    · cases first
    · cases first
      rfl

/-- An item can begin at the start. -/
theorem opensItem_nil : OpensItem [] := fun _ last => by cases last

/-- An item can end at the end. -/
theorem closesItem_nil : ClosesItem [] := fun _ first => by cases first

/-- An item cannot begin behind tokens whose last one is no comma, whatever is in front of them. -/
theorem not_opensItem_append {taken : List Token} (ends : ¬OpensItem taken) (front : List Token) :
    ¬OpensItem (front ++ taken) := by
  intro opens
  apply ends
  intro token last
  apply opens
  rw [Option.mem_def] at last ⊢
  rw [List.getLast?_append, last, Option.some_or]

namespace Path

variable {tokens : List Token} {path : Path}

/-- Where no colon is next a path goes on with no segment. -/
theorem readMore_of_head?_ne (absent : ∀ joint, tokens.head? ≠ some (.mark ':' joint)) :
    readMore tokens = .ok ([], .all tokens) := by
  unfold readMore
  split
  · exact absurd rfl (absent true)
  · exact absurd rfl (absent true)
  · rfl

/-- The segments that go on with a path end in no comma, and the same ones go on with it where any
other token than a colon follows. -/
theorem readMore_append {words : List Word} {later : Rest tokens}
    (read : readMore tokens = .ok (words, later)) (word : Word) :
    ∃ taken, tokens = taken ++ later.val ∧ ¬OpensItem (.word word :: taken) ∧
      ∀ other : List Token, (∀ joint, other.head? ≠ some (.mark ':' joint)) →
        ∃ fewer, readMore (taken ++ other) = .ok (words, ⟨other, fewer⟩) := by
  fun_induction readMore tokens generalizing words word with
  | case1 second first rest hypothesis =>
    obtain ⟨⟨more, left⟩, found, read⟩ := exists_of_bind_eq_ok read
    cases read
    obtain ⟨taken, whole, ends, again⟩ := hypothesis found first
    refine ⟨.mark ':' true :: .mark ':' second :: .word first :: taken, ?_, ?_, ?_⟩
    · rw [List.cons_append, List.cons_append, List.cons_append, ← whole]
    · exact not_opensItem_append ends [.word word, .mark ':' true, .mark ':' second]
    · intro other absent
      obtain ⟨fewer, read⟩ := again other absent
      refine ⟨by simp only [List.length_append, List.length_cons]; omega, ?_⟩
      simp only [List.cons_append, readMore, read]
      rfl
  | case2 second rest _ =>
    cases read
  | case3 tokens _ _ =>
    cases read
    have ends : ¬OpensItem [.word word] := fun opens => absurd (opens _ rfl) Bool.false_ne_true
    exact ⟨[], rfl, ends, fun other absent => ⟨Nat.le_refl _, readMore_of_head?_ne absent⟩⟩

/-- A path ends in no comma, and the same path is read where any other token than a colon follows. -/
theorem read_append {later : Later tokens} (found : Path.read tokens = .ok (path, later)) :
    ∃ taken, tokens = taken ++ later.val ∧ ¬OpensItem taken ∧
      ∀ other : List Token, (∀ joint, other.head? ≠ some (.mark ':' joint)) →
        ∃ fewer, Path.read (taken ++ other) = .ok (path, ⟨other, fewer⟩) := by
  unfold Path.read at found
  split at found
  · next first rest =>
    obtain ⟨⟨words, left⟩, more, found⟩ := exists_of_bind_eq_ok found
    cases found
    obtain ⟨taken, whole, ends, again⟩ := readMore_append more first
    refine ⟨.word first :: taken, by rw [List.cons_append, ← whole], ends, ?_⟩
    intro other absent
    obtain ⟨fewer, read⟩ := again other absent
    refine ⟨by simp only [List.length_append, List.length_cons]; omega, ?_⟩
    simp only [List.cons_append, Path.read, read]
    rfl
  · next second first rest =>
    obtain ⟨⟨words, left⟩, more, found⟩ := exists_of_bind_eq_ok found
    cases found
    obtain ⟨taken, whole, ends, again⟩ := readMore_append more first
    refine ⟨[.mark ':' true, .mark ':' second] ++ .word first :: taken, by simp [whole],
      not_opensItem_append ends _, ?_⟩
    intro other absent
    obtain ⟨fewer, read⟩ := again other absent
    refine ⟨by simp only [List.length_append, List.length_cons]; omega, ?_⟩
    simp only [List.cons_append, List.nil_append, Path.read, read]
    rfl
  · cases found
  · cases found

end Path

namespace Reader

variable {α : Type} {reader : Reader α}

/-- What the reader reads up to the end of an item ends in no comma, and it is read the same whatever
follows the end. -/
def Delimited (reader : Reader α) : Prop :=
  ∀ ⦃tokens value rest unread⦄, reader.Reads tokens value rest unread → ClosesItem rest →
    ∃ taken, tokens = taken ++ rest ∧ ¬OpensItem taken ∧
      ∀ other, ClosesItem other → reader.Reads (taken ++ other) value other unread

/-- What is read in front of a last part that has a token is read the same whatever follows that
part. -/
theorem Local.reads_append (near : reader.Local) {tokens taken rest : List Token} {value : α}
    {unread : Option Delimiter} (read : reader.Reads tokens value (taken ++ rest) unread)
    (ends : ¬OpensItem taken) :
    ∃ front, tokens = front ++ (taken ++ rest) ∧
      ∀ other, reader.Reads (front ++ (taken ++ other)) value (taken ++ other) unread := by
  obtain ⟨front, whole, again⟩ := near read
  refine ⟨front, whole, fun other => again _ ?_⟩
  cases taken with
  | nil => exact absurd opensItem_nil ends
  | cons token behind => rfl

end Reader

namespace Attribute

variable {Known : Type} {item : ItemReader Known} {known after final : Known}
  {tokens rest : List Token} {unread left : Option Delimiter} {fault : Fault}

/-- The first item of the tokens is this, and leaves these tokens. -/
def ReadsItem (item : ItemReader Known) (known : Known) (tokens : List Token) (after : Known)
    (rest : List Token) (left : Option Delimiter) : Prop :=
  ∃ path later, Path.read tokens = .ok (path, later) ∧
    (item known path).Reads later.val after rest left

/-- What follows the path of an item is no colon, and it is delimited. -/
structure Delimits (item : ItemReader Known) : Prop where
  /-- No colon follows the path. -/
  starts : ∀ known path tokens after rest left, (item known path).Reads tokens after rest left →
    ∀ joint, tokens.head? ≠ some (.mark ':' joint)
  /-- What follows the path is read the same whatever follows its end. -/
  ends : ∀ known path, (item known path).Delimited

/-- The first item is read the same whatever follows its end. -/
theorem Delimits.readsItem_append (delimits : Delimits item)
    (read : ReadsItem item known tokens after rest left) (closes : ClosesItem rest) :
    ∃ taken, tokens = taken ++ rest ∧ ¬OpensItem taken ∧
      ∀ other, ClosesItem other → ReadsItem item known (taken ++ other) after other left := by
  obtain ⟨path, later, found, read⟩ := read
  obtain ⟨words, front, -, paths⟩ := Path.read_append found
  obtain ⟨taken, whole, ends, again⟩ := delimits.ends known path read closes
  refine ⟨words ++ taken, front.trans (by rw [List.append_assoc, ← whole]), not_opensItem_append ends words, ?_⟩
  intro other closes_other
  have read_other := again other closes_other
  obtain ⟨fewer, found_other⟩ := paths _ (delimits.starts _ _ _ _ _ _ read_other)
  rw [List.append_assoc]
  exact ⟨path, _, found_other, read_other⟩

/-! ## One item, and those behind it -/

/-- What is known after the first item is what the others are read with. -/
theorem readItems_of_readsItem (read : ReadsItem item known tokens after rest left)
    (closes : ClosesItem rest) :
    readItems item unread known tokens = readItems item (unread.or left) after rest.tail := by
  obtain ⟨path, later, found, fewer, read⟩ := read
  match tokens with
  | [] => cases found
  | first :: behind =>
    rw [readItems]
    simp only [found, bind, Except.bind, read]
    obtain rfl | ⟨joint, others, rfl⟩ := closesItem_iff.mp closes
    · rfl
    · rfl

/-- A fault of the first item is the fault of the list. -/
theorem readItems_eq_error {path : Path} {later : Later tokens}
    (found : Path.read tokens = .ok (path, later)) (failed : item known path later.val = .error fault) :
    readItems item unread known tokens = .error fault := by
  match tokens with
  | [] => cases found
  | first :: behind =>
    rw [readItems]
    simp only [found, bind, Except.bind, failed]

/-- Of a list that is read the first item is read. -/
theorem exists_readsItem_of_eq_ok (some_tokens : tokens ≠ [])
    (read : readItems item unread known tokens = .ok final) :
    ∃ after rest left, ReadsItem item known tokens after rest left ∧ ClosesItem rest := by
  match tokens with
  | [] => exact absurd rfl some_tokens
  | first :: behind =>
    rw [readItems] at read
    obtain ⟨⟨path, later⟩, found, read⟩ := exists_of_bind_eq_ok read
    obtain ⟨reading, given, read⟩ := exists_of_bind_eq_ok read
    refine ⟨_, _, _, ⟨path, later, found, Reader.reads_of_eq_ok given⟩, closesItem_iff.mpr ?_⟩
    simp only at read
    split at read
    · next ends => exact .inl ends
    · next joint others ends => exact .inr ⟨joint, others, ends⟩
    · cases read

/-! ## All items -/

/-- These are the items that take what is known to what is known after them. None of them leaves a
group before its end. -/
inductive ReadsItems (item : ItemReader Known) : Known → List Token → Known → Prop where
  /-- No items. -/
  | nil {known : Known} : ReadsItems item known [] known
  /-- An item, and those behind the comma at its end, if there is one. -/
  | cons {known after final : Known} {tokens rest : List Token}
      (read : ReadsItem item known tokens after rest none) (closes : ClosesItem rest)
      (later : ReadsItems item after rest.tail final) : ReadsItems item known tokens final

/-- Behind the first item fewer tokens are left. -/
theorem ReadsItem.length_lt (read : ReadsItem item known tokens after rest left) :
    rest.length < tokens.length := by
  obtain ⟨path, later, -, read⟩ := read
  exact Nat.lt_of_le_of_lt read.length_le later.property

/-- If a list is read, then no group was left before its end, and the list is its items. -/
theorem readsItems_of_eq_ok (read : readItems item unread known tokens = .ok final) :
    unread = none ∧ ReadsItems item known tokens final := by
  induction size : tokens.length using Nat.strongRecOn generalizing tokens known unread with
  | ind size hypothesis =>
    subst size
    by_cases empty : tokens = []
    · subst empty
      cases unread with
      | none =>
        rw [readItems] at read
        cases read
        exact ⟨rfl, .nil⟩
      | some delimiter =>
        rw [readItems] at read
        cases read
    · obtain ⟨after, rest, left, first, closes⟩ := exists_readsItem_of_eq_ok empty read
      rw [readItems_of_readsItem first closes] at read
      have shorter : rest.tail.length < tokens.length := by
        have fewer := first.length_lt
        rw [List.length_tail]
        omega
      obtain ⟨none_left, later⟩ := hypothesis _ shorter read rfl
      obtain ⟨rfl, rfl⟩ := Option.or_eq_none_iff.mp none_left
      exact ⟨rfl, .cons first closes later⟩

/-- A list is read exactly as its items. -/
theorem readItems_eq_ok_iff :
    readItems item none known tokens = .ok final ↔ ReadsItems item known tokens final := by
  constructor
  · intro read
    exact (readsItems_of_eq_ok read).2
  · intro items
    induction items with
    | nil => rw [readItems]
    | cons read closes _ hypothesis => rw [readItems_of_readsItem read closes, Option.or_none, hypothesis]

/-- Items behind a comma, or behind no items, are read with what is known after those in front. -/
theorem ReadsItems.append (delimits : Delimits item) (front : ReadsItems item known tokens after)
    (opens : OpensItem tokens) (more : List Token) :
    readItems item none known (tokens ++ more) = readItems item none after more := by
  induction front with
  | nil => rfl
  | @cons known middle final tokens rest read closes _ hypothesis =>
    obtain ⟨taken, rfl, ends, again⟩ := delimits.readsItem_append read closes
    -- The last token is a comma, so it is none of the item's own.
    obtain rfl | ⟨joint, later, rfl⟩ := closesItem_iff.mp closes
    · rw [List.append_nil] at opens
      exact absurd opens ends
    · have closes_more : ClosesItem (.mark ',' joint :: later ++ more) :=
        closesItem_iff.mpr (.inr ⟨joint, later ++ more, rfl⟩)
      have opens_later : OpensItem later := by
        intro token last
        apply opens
        rw [Option.mem_def] at last ⊢
        rw [List.getLast?_append, List.getLast?_cons, last]
        rfl
      rw [List.append_assoc, readItems_of_readsItem (again _ closes_more) closes_more]
      exact hypothesis opens_later

/-! ## All attributes of a name -/

variable {name : String} {attributes before : List Attribute}

/-- Attributes behind others are read with what is known after those. -/
theorem readAll_append (attributes : List Attribute) :
    readAll name item known (before ++ attributes) =
      readAll name item known before >>= fun after => readAll name item after attributes := by
  rw [readAll, List.filter_append, List.foldlM_append]
  rfl

/-- The items of an attribute of the name come first, and other attributes do not count. -/
theorem readAll_cons (given : Attribute) (attributes : List Attribute) :
    readAll name item known (given :: attributes) =
      (if given.path.name? = some name then given.items name >>= readItems item none known
        else .ok known) >>= fun after => readAll name item after attributes := by
  rw [readAll, List.filter_cons]
  by_cases named : given.path.name? = some name
  · rw [if_pos (by simpa using named), if_pos named, List.foldlM_cons]
    rfl
  · rw [if_neg (by simpa using named), if_neg named]
    rfl

/-- Items behind a comma in the list of an attribute, or behind no items, are read with what is known
after those in front and after the attributes before. -/
theorem readAll_append_cons (delimits : Delimits item) {path : Path}
    (named : path.name? = some name) {middle : Known}
    (begun : readAll name item known before = .ok middle)
    (front : readItems item none middle tokens = .ok after) (opens : OpensItem tokens)
    (more : List Token) (attributes : List Attribute) :
    readAll name item known (before ++ ⟨path, .list (tokens ++ more)⟩ :: attributes) =
      readItems item none after more >>= fun final => readAll name item final attributes := by
  have items := (readItems_eq_ok_iff.mp front).append delimits opens more
  rw [readAll_append, begun]
  change readAll name item middle (⟨path, .list (tokens ++ more)⟩ :: attributes) = _
  rw [readAll_cons, if_pos named]
  change (readItems item none middle (tokens ++ more) >>= _) = _
  rw [items]

/-! ## What items keep -/

variable {change : Known → Known} {holds : Known → Prop}

/-- Where this holds after an item, it holds before it, and the item is read the same with the change
made before it as with the change made after it. -/
def Commutes (item : ItemReader Known) (change : Known → Known) (holds : Known → Prop) : Prop :=
  ∀ ⦃known path tokens after rest left⦄, (item known path).Reads tokens after rest left →
    holds after → holds known ∧ (item (change known) path).Reads tokens (change after) rest left

/-- A change that commutes with an item commutes with a list of items. -/
theorem ReadsItems.of_commutes (commutes : Commutes item change holds)
    (items : ReadsItems item known tokens final) (ends : holds final) :
    holds known ∧ ReadsItems item (change known) tokens (change final) := by
  induction items with
  | nil => exact ⟨ends, .nil⟩
  | cons read closes _ hypothesis =>
    obtain ⟨middle, later⟩ := hypothesis ends
    obtain ⟨path, behind, found, read⟩ := read
    obtain ⟨starts, read⟩ := commutes read middle
    exact ⟨starts, .cons ⟨path, behind, found, read⟩ closes later⟩

/-- A change that commutes with an item commutes with the attributes of a name. -/
theorem readAll_of_commutes (commutes : Commutes item change holds)
    (read : readAll name item known attributes = .ok final) (ends : holds final) :
    holds known ∧ readAll name item (change known) attributes = .ok (change final) := by
  induction attributes generalizing known with
  | nil =>
    cases read
    exact ⟨ends, rfl⟩
  | cons given later hypothesis =>
    rw [readAll_cons] at read ⊢
    obtain ⟨after, first, read⟩ := exists_of_bind_eq_ok read
    obtain ⟨middle, read⟩ := hypothesis read
    by_cases named : given.path.name? = some name
    · rw [if_pos named] at first ⊢
      obtain ⟨tokens, listed, first⟩ := exists_of_bind_eq_ok first
      have items := (readItems_eq_ok_iff.mp first).of_commutes commutes middle
      refine ⟨items.1, ?_⟩
      rw [listed]
      simp only [bind, Except.bind, readItems_eq_ok_iff.mpr items.2]
      exact read
    · rw [if_neg named] at first ⊢
      cases first
      exact ⟨middle, read⟩

end Attribute

end EnumNames.Declaration
