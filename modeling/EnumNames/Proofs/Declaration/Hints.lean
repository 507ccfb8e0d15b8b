import EnumNames.Declaration.Hints
import EnumNames.Proofs.Declaration.Pieces
/-!
# Which representation the hints give

A hint on the representation is a path, and a group may follow a path that names no integer type. A
hint that names a supported type gives the representation, whatever was known before, and any other
hint but the unsupported type leaves what is known as it is. So of all hints, over all attributes,
only those on integer types count, and of these the last one.
-/
namespace EnumNames.Declaration

open Token

/-! ## What follows the path of a hint -/

/-- The representation that a path names. -/
def Path.representation? (path : Path) : Option Representation :=
  path.name?.bind Representation.ofName?

/-- Whether a path names the integer type that is not supported. -/
def Path.isUnsupported (path : Path) : Bool := path.name? = some "u128"

/-- What is read behind the path of a hint. -/
inductive HintReads (representation : Representation) (path : Path) :
    List Token → Representation → List Token → Option Delimiter → Prop where
  /-- Nothing, if the path names a type. -/
  | named {tokens : List Token} {type : Representation} (names : path.representation? = some type) :
      HintReads representation path tokens type tokens none
  /-- Nothing, if no group is next. -/
  | bare {tokens : List Token} (other : path.representation? = none)
      (absent : tokens.head? ≠ some (.opening .parenthesis)) :
      HintReads representation path tokens representation tokens none
  /-- A group. -/
  | group {behind : List Token} (other : path.representation? = none) :
      HintReads representation path (.opening .parenthesis :: behind) representation
        (afterClosing behind) none

/-- A group is read up to its end. -/
theorem HintReads.of_nested {representation : Representation} {path : Path}
    {inner rest : List Token} (other : path.representation? = none) (closed : nested [] inner) :
    HintReads representation path
      (.opening .parenthesis :: inner ++ .closing .parenthesis :: rest) representation rest
      none := by
  have reads : HintReads representation path
      (.opening .parenthesis :: (inner ++ .closing .parenthesis :: rest)) representation
      (afterClosing (inner ++ .closing .parenthesis :: rest)) none := .group other
  rwa [(inside_of_nested .parenthesis rest closed).2] at reads

/-- Whether a group is next is seen from the first token. -/
theorem begins_group_iff {tokens : List Token} {delimiter : Delimiter} :
    begins tokens (.group delimiter) ↔ tokens.head? = some (.opening delimiter) := by
  unfold begins Sign.width?
  match tokens with
  | [] => simp
  | .opening found :: rest => by_cases same : found = delimiter <;> simp [same]
  | .word _ :: _ | .mark _ _ :: _ | .literal _ :: _ | .lifetime :: _ | .closing _ :: _ => simp

section Reading

variable {representation after type : Representation} {path : Path} {tokens rest : List Token}
  {left : Option Delimiter}

/-- A path that names the unsupported type does so by a word on its own. -/
theorem Path.isUnsupported_iff : path.isUnsupported ↔ path.name? = some "u128" := by
  simp [isUnsupported]

/-- The unsupported type is no representation. -/
theorem Path.representation?_of_isUnsupported (unsupported : path.isUnsupported) :
    path.representation? = none := by
  rw [representation?, isUnsupported_iff.mp unsupported]
  decide

/-- The unsupported type is a fault. -/
theorem readHint_of_isUnsupported (unsupported : path.isUnsupported) :
    readHint representation path = Reader.fail .unsupportedRepresentation := by
  rw [Path.isUnsupported_iff] at unsupported
  simp [readHint, unsupported]

/-- A path that names a type gives it. -/
theorem readHint_of_named (names : path.representation? = some type) :
    readHint representation path = pure type := by
  unfold readHint
  split
  · next unsupported =>
    have unnamed := Path.representation?_of_isUnsupported (Path.isUnsupported_iff.mpr unsupported)
    cases unnamed.symm.trans names
  · rw [Path.representation?] at names
    simp [names]

/-- Any other path keeps what is known, whether a group follows it or not. -/
theorem readHint_of_other (supported : path.isUnsupported = false)
    (other : path.representation? = none) :
    readHint representation path =
      Reader.next (.group .parenthesis) >>= fun grouped =>
        if grouped = true then
          Reader.within .parenthesis Reader.remaining >>= fun _ => pure representation
        else pure representation := by
  unfold readHint
  split
  · next unsupported =>
    rw [Path.isUnsupported_iff.mpr unsupported] at supported
    cases supported
  · rw [Path.representation?] at other
    rw [other]

/-- To read what is left leaves nothing. -/
theorem reads_remaining_iff {value : Unit} :
    Reader.remaining.Reads tokens value rest left ↔ rest = [] ∧ left = none := by
  constructor
  · rintro ⟨_, read⟩
    cases read
    exact ⟨rfl, rfl⟩
  · rintro ⟨rfl, rfl⟩
    exact ⟨Nat.zero_le _, rfl⟩

/-- A group whose tokens do not matter is read up to its end. -/
theorem reads_within_remaining_iff {delimiter : Delimiter} :
    (Reader.within delimiter Reader.remaining).Reads tokens () rest left ↔
      ∃ behind, tokens = .opening delimiter :: behind ∧ afterClosing behind = rest ∧
        left = none := by
  rw [Reader.reads_within_iff]
  simp only [reads_remaining_iff]
  constructor
  · rintro ⟨behind, _, _, rfl, ⟨rfl, rfl⟩, rfl, rfl⟩
    exact ⟨behind, rfl, rfl, rfl⟩
  · rintro ⟨behind, rfl, rfl, rfl⟩
    exact ⟨behind, [], none, rfl, ⟨rfl, rfl⟩, rfl, rfl⟩

/-- Behind any path but that of the unsupported type a hint is read as described. -/
theorem reads_readHint_iff :
    (readHint representation path).Reads tokens after rest left ↔
      path.isUnsupported = false ∧ HintReads representation path tokens after rest left := by
  cases supported : path.isUnsupported with
  | true =>
    rw [readHint_of_isUnsupported supported]
    simp [Reader.not_reads_fail]
  | false =>
    rw [eq_self_iff_true, true_and]
    cases named : path.representation? with
    | some type =>
      rw [readHint_of_named named, Reader.reads_pure_iff]
      constructor
      · rintro ⟨rfl, rfl, rfl⟩
        exact .named named
      · intro reads
        cases reads with
        | named names => exact ⟨Option.some.inj (named.symm.trans names), rfl, rfl⟩
        | bare other | group other => cases named.symm.trans other
    | none =>
      rw [readHint_of_other supported named, Reader.reads_bind_iff]
      constructor
      · rintro ⟨grouped, middle, earlier, later, next, read, rfl⟩
        obtain ⟨rfl, rfl, rfl⟩ := Reader.reads_next_iff.mp next
        split at read
        · obtain ⟨_, grouped, rfl⟩ := Reader.reads_bind_pure_iff.mp read
          obtain ⟨behind, rfl, rfl, rfl⟩ := reads_within_remaining_iff.mp grouped
          exact .group named
        · next absent =>
          obtain ⟨rfl, rfl, rfl⟩ := Reader.reads_pure_iff.mp read
          exact .bare named fun first => absent (begins_group_iff.mpr first)
      · intro reads
        -- To look for a group takes nothing, so what is read depends on what was seen only.
        refine ⟨_, tokens, none, left, Reader.reads_next_iff.mpr ⟨rfl, rfl, rfl⟩, ?_, by simp⟩
        cases reads with
        | named names => cases named.symm.trans names
        | bare other absent =>
          rw [if_neg fun first => absent (begins_group_iff.mp first)]
          exact Reader.reads_pure_iff.mpr ⟨rfl, rfl, rfl⟩
        | group other =>
          rw [if_pos (begins_group_iff.mpr rfl)]
          exact Reader.reads_bind_pure_iff.mpr
            ⟨(), reads_within_remaining_iff.mpr ⟨_, rfl, rfl, rfl⟩, rfl⟩

end Reading

/-- What follows the path of a hint is nothing or a group. -/
theorem apart_readHint : Attribute.Apart readHint := by
  intro representation path tokens after rest left read closes closed
  obtain ⟨supported, reads⟩ := reads_readHint_iff.mp read
  cases reads with
  | named names =>
    refine ⟨[], rfl, .inl rfl, by simp, fun other _ => reads_readHint_iff.mpr ⟨supported, ?_⟩⟩
    exact .named names
  | bare unnamed absent =>
    refine ⟨[], rfl, .inl rfl, by simp, fun other closes => reads_readHint_iff.mpr ⟨supported, ?_⟩⟩
    exact .bare unnamed (closes.head?_ne rfl)
  | group unnamed =>
    obtain ⟨inner, behind, rfl, ends, -⟩ := exists_closing_of_nested [] [] closed
    rw [(inside_of_nested .parenthesis behind ends).2]
    refine ⟨.opening .parenthesis :: inner ++ [.closing .parenthesis], by simp, .inr (.group ends),
      by simp, fun other _ => ?_⟩
    rw [List.append_assoc]
    exact reads_readHint_iff.mpr ⟨supported, .of_nested unnamed ends⟩

/-! ## Hints as they are written -/

namespace Path

/-- The tokens of further segments, each behind a separator. -/
def furtherTokens : List Word → List Token
  | [] => []
  | segment :: later => .mark ':' true :: .mark ':' false :: .word segment :: furtherTokens later

/-- The tokens of a path. -/
def tokens : Path → List Token
  | ⟨_, []⟩ => []
  | ⟨false, first :: more⟩ => .word first :: furtherTokens more
  | ⟨true, segments⟩ => furtherTokens segments

variable {rest : List Token} (absent : ∀ joint, rest.head? ≠ some (.mark ':' joint))
include absent

/-- Further segments are read as they are written. -/
theorem readMore_furtherTokens (words : List Word) :
    ∃ fewer, readMore (furtherTokens words ++ rest) = .ok (words, ⟨rest, fewer⟩) := by
  induction words with
  | nil => exact ⟨Nat.le_refl _, readMore_of_head?_ne absent⟩
  | cons segment later hypothesis =>
    obtain ⟨fewer, read⟩ := hypothesis
    refine ⟨by simp only [List.length_append]; omega, ?_⟩
    simp only [furtherTokens, List.cons_append, readMore, read]
    rfl

/-- A path is read as it is written. -/
theorem read_tokens {path : Path} (some_segments : path.segments ≠ []) :
    ∃ fewer, Path.read (path.tokens ++ rest) = .ok (path, ⟨rest, fewer⟩) := by
  match path with
  | ⟨_, []⟩ => exact absurd rfl some_segments
  | ⟨false, first :: more⟩ =>
    obtain ⟨fewer, read⟩ := readMore_furtherTokens absent more
    refine ⟨by simp only [tokens, List.length_append, List.length_cons]; omega, ?_⟩
    simp only [tokens, List.cons_append, Path.read, read]
    rfl
  | ⟨true, first :: more⟩ =>
    obtain ⟨fewer, read⟩ := readMore_furtherTokens absent more
    refine ⟨by simp only [tokens, furtherTokens, List.length_append, List.length_cons]; omega, ?_⟩
    simp only [tokens, furtherTokens, List.cons_append, Path.read, read]
    rfl

end Path

/-- A hint as it can be written: a path, and a group behind a path that names no integer type. -/
structure Hint where
  /-- The path. -/
  path : Path
  /-- The tokens in the group. -/
  group : Option (List Token)
  /-- The path has a segment. -/
  some_segments : path.segments ≠ []
  /-- The groups in the group end. -/
  closed : ∀ inner ∈ group, nested [] inner
  /-- No group is behind the name of an integer type, supported or not. -/
  other : group.isSome → path.isUnsupported = false ∧ path.representation? = none

namespace Hint

/-- The tokens behind the path of a hint. -/
def groupTokens (hint : Hint) : List Token :=
  match hint.group with
  | none => []
  | some inner => .opening .parenthesis :: inner ++ [.closing .parenthesis]

/-- The tokens of a hint. -/
def tokens (hint : Hint) : List Token := hint.path.tokens ++ hint.groupTokens

/-- Whether a hint counts: it names an integer type, supported or not. -/
def counts (hint : Hint) : Bool := hint.path.isUnsupported || hint.path.representation?.isSome

end Hint

/-- The representation that hints give behind one that was given before them: the last supported
type, if the unsupported one is not among them. -/
def representationBehind (before : Representation) (hints : List Hint) :
    Except Fault Representation :=
  if hints.any (·.path.isUnsupported) then .error .unsupportedRepresentation
  else .ok ((hints.filterMap (·.path.representation?)).getLast?.getD before)

section Behind

variable {before : Representation} {hint : Hint} {hints more : List Hint}

/-- The unsupported type is a fault wherever it stands. -/
theorem representationBehind_cons_of_isUnsupported (unsupported : hint.path.isUnsupported) :
    representationBehind before (hint :: hints) = .error .unsupportedRepresentation := by
  rw [representationBehind, List.any_cons, unsupported, Bool.true_or, if_pos rfl]

/-- The first of several hints gives what is known before the others. -/
theorem representationBehind_cons (supported : hint.path.isUnsupported = false) :
    representationBehind before (hint :: hints) =
      representationBehind (hint.path.representation?.getD before) hints := by
  rw [representationBehind, representationBehind, List.any_cons, supported, Bool.false_or,
    List.filterMap_cons]
  cases hint.path.representation? with
  | none => rfl
  | some type =>
    rw [List.getLast?_cons, Option.getD_some]
    rfl

/-- Hints behind others are read with what those give. -/
theorem representationBehind_append :
    representationBehind before (hints ++ more) =
      representationBehind before hints >>= (representationBehind · more) := by
  induction hints generalizing before with
  | nil => rfl
  | cons hint later hypothesis =>
    cases supported : hint.path.isUnsupported with
    | true =>
      rw [List.cons_append, representationBehind_cons_of_isUnsupported supported,
        representationBehind_cons_of_isUnsupported supported]
      rfl
    | false =>
      rw [List.cons_append, representationBehind_cons supported, hypothesis,
        representationBehind_cons supported]

/-- Only the hints that count do so. -/
theorem representationBehind_filter :
    representationBehind before (hints.filter (·.counts)) = representationBehind before hints := by
  induction hints generalizing before with
  | nil => rfl
  | cons hint later hypothesis =>
    rw [List.filter_cons]
    cases supported : hint.path.isUnsupported with
    | true =>
      have counts : hint.counts := by rw [Hint.counts, supported, Bool.true_or]
      rw [if_pos counts, representationBehind_cons_of_isUnsupported supported,
        representationBehind_cons_of_isUnsupported supported]
    | false =>
      rw [representationBehind_cons supported]
      split
      · rw [representationBehind_cons supported, hypothesis]
      · next ignored =>
        have unnamed : hint.path.representation? = none := by
          simpa [Hint.counts, supported] using ignored
        rw [hypothesis, unnamed, Option.getD_none]

end Behind

/-- The tokens spell these hints, with a comma behind each but perhaps the last. -/
inductive SpellsHints : List Hint → List Token → Prop where
  /-- No hints. -/
  | nil : SpellsHints [] []
  /-- A hint at the end. -/
  | last (hint : Hint) : SpellsHints [hint] hint.tokens
  /-- A hint in front of others, or of none. -/
  | cons (hint : Hint) (joint : Bool) {hints : List Hint} {tokens : List Token}
      (later : SpellsHints hints tokens) :
      SpellsHints (hint :: hints) (hint.tokens ++ .mark ',' joint :: tokens)

/-- The attributes that give hints on the representation give these in order. -/
inductive GivesHints : List Attribute → List Hint → Prop where
  /-- No attributes. -/
  | nil : GivesHints [] []
  /-- An attribute with another name. -/
  | other {given : Attribute} {attributes : List Attribute} {hints : List Hint}
      (unnamed : given.path.name? ≠ some "repr") (later : GivesHints attributes hints) :
      GivesHints (given :: attributes) hints
  /-- An attribute with a list of hints. -/
  | list {path : Path} {tokens : List Token} {attributes : List Attribute}
      {hints more : List Hint} (named : path.name? = some "repr")
      (spells : SpellsHints hints tokens) (later : GivesHints attributes more) :
      GivesHints (⟨path, .list tokens⟩ :: attributes) (hints ++ more)

/-! ## What is read of them -/

namespace Hint

variable {before : Representation} {rest : List Token}

/-- The path of a hint is read as it is written. -/
theorem read_tokens (hint : Hint) (closes : ClosesItem rest) :
    ∃ fewer, Path.read (hint.tokens ++ rest) =
      .ok (hint.path, ⟨hint.groupTokens ++ rest, fewer⟩) := by
  have absent : ∀ joint, (hint.groupTokens ++ rest).head? ≠ some (.mark ':' joint) := by
    intro joint
    rw [groupTokens]
    split
    · exact closes.head?_ne rfl
    · simp
  rw [tokens, List.append_assoc]
  exact Path.read_tokens absent hint.some_segments

/-- The unsupported type is read as a fault. -/
theorem readItems_eq_error (hint : Hint) (unsupported : hint.path.isUnsupported)
    (closes : ClosesItem rest) :
    Attribute.readItems readHint none before (hint.tokens ++ rest) =
      .error .unsupportedRepresentation := by
  obtain ⟨fewer, found⟩ := hint.read_tokens closes
  apply Attribute.readItems_eq_error found
  rw [readHint_of_isUnsupported unsupported]
  rfl

/-- What is behind the path of any other hint is read up to the end of the hint. -/
theorem hintReads (hint : Hint) (closes : ClosesItem rest) :
    HintReads before hint.path (hint.groupTokens ++ rest)
      (hint.path.representation?.getD before) rest none := by
  rw [groupTokens]
  cases grouped : hint.group with
  | none =>
    cases named : hint.path.representation? with
    | some type => exact .named named
    | none => exact .bare named (closes.head?_ne rfl)
  | some inner =>
    have unnamed : hint.path.representation? = none := (hint.other (by rw [grouped]; rfl)).2
    have closed : nested [] inner := hint.closed inner grouped
    rw [unnamed, Option.getD_none]
    simpa using HintReads.of_nested unnamed closed

/-- Any other hint is read as it is written, up to its end. -/
theorem readsItem (hint : Hint) (supported : hint.path.isUnsupported = false)
    (closes : ClosesItem rest) :
    Attribute.ReadsItem readHint before (hint.tokens ++ rest)
      (hint.path.representation?.getD before) rest none := by
  obtain ⟨fewer, found⟩ := hint.read_tokens closes
  exact ⟨hint.path, _, found, reads_readHint_iff.mpr ⟨supported, hint.hintReads closes⟩⟩

/-- A hint in front of others gives what is known before those. -/
theorem readItems_append (hint : Hint) {later : List Hint} (closes : ClosesItem rest)
    (same : ∀ before, Attribute.readItems readHint none before rest.tail =
      representationBehind before later) :
    Attribute.readItems readHint none before (hint.tokens ++ rest) =
      representationBehind before (hint :: later) := by
  cases supported : hint.path.isUnsupported with
  | true =>
    rw [hint.readItems_eq_error supported closes,
      representationBehind_cons_of_isUnsupported supported]
  | false =>
    rw [Attribute.readItems_of_readsItem (hint.readsItem supported closes) closes,
      representationBehind_cons supported]
    exact same _

end Hint

section Read

variable {before : Representation} {hints more : List Hint} {tokens : List Token}
  {attributes others : List Attribute}

/-- A list of hints gives what its hints give. -/
theorem SpellsHints.readItems_eq (spells : SpellsHints hints tokens) :
    Attribute.readItems readHint none before tokens = representationBehind before hints := by
  induction spells generalizing before with
  | nil =>
    rw [Attribute.readItems]
    rfl
  | last hint =>
    rw [← List.append_nil hint.tokens]
    refine hint.readItems_append closesItem_nil fun before => ?_
    rw [List.tail_nil, Attribute.readItems]
    rfl
  | cons hint joint _ hypothesis =>
    exact hint.readItems_append (closesItem_cons joint _) fun before => hypothesis

/-- The attributes that give hints give what all their hints give. -/
theorem GivesHints.readAll_eq (gives : GivesHints attributes hints) :
    Attribute.readAll "repr" readHint before attributes = representationBehind before hints := by
  induction gives generalizing before with
  | nil => rfl
  | other unnamed _ hypothesis =>
    rw [Attribute.readAll_cons, if_neg unnamed]
    exact hypothesis
  | list named spells _ hypothesis =>
    rw [Attribute.readAll_cons, if_pos named, representationBehind_append, ← spells.readItems_eq]
    simp only [hypothesis]
    rfl

/-- What the hints of attributes give: a fault if the unsupported type is among them, and otherwise
the last supported type, or the signed type of the size of an address if there is none. Other hints
do not count, wherever they stand. -/
theorem representation_of_hints (gives : GivesHints attributes hints) :
    representationOf attributes =
        (if ∃ hint ∈ hints, hint.path.name? = some "u128" then .error .unsupportedRepresentation
        else .ok ((hints.filterMap (·.path.representation?)).getLast?.getD .isize)) ∧
      ∀ others more, GivesHints others more → more.filter (·.counts) = hints.filter (·.counts) →
        representationOf others = representationOf attributes := by
  have given : ∀ {attributes hints}, GivesHints attributes hints →
      representationOf attributes = representationBehind .isize hints :=
    fun gives => gives.readAll_eq
  constructor
  · rw [given gives, representationBehind]
    simp only [List.any_eq_true, Path.isUnsupported_iff]
  · intro others more gives_others same
    rw [given gives_others, given gives, ← representationBehind_filter, same,
      representationBehind_filter]

end Read

/-- Hints on a supported type and a raw word in two attributes, with a group behind one of them, and
the same types on their own. -/
theorem representation_of_hints_spread :
    let path (raw : Bool) (name : String) : Path := ⟨false, [⟨raw, name⟩]⟩
    let hints (tokens : List Token) : Attribute := ⟨path false "repr", .list tokens⟩
    let word (name : String) : Token := .word ⟨false, name⟩
    let comma : Token := .mark ',' false
    let mixed : List Attribute :=
      [hints [word "C", comma, word "u8", comma], ⟨path false "doc", .value⟩,
        hints [word "i32", comma, .word ⟨true, "u64"⟩, comma, word "align", .opening .parenthesis,
          .literal (.integer 8 ""), .closing .parenthesis]]
    representationOf mixed = .ok .i32 ∧
      representationOf [hints [word "u8", comma, word "i32"]] = .ok .i32 ∧
      representationOf [hints [word "i32", comma, word "u128"], hints [word "C"]] =
        .error .unsupportedRepresentation := by
  intro path hints word comma mixed
  let plain (raw : Bool) (name : String) : Hint :=
    ⟨path raw name, none, List.cons_ne_nil _ _, nofun, nofun⟩
  let aligned : Hint :=
    ⟨path false "align", some [.literal (.integer 8 "")], List.cons_ne_nil _ _,
      by rintro _ ⟨⟩; rfl, fun _ => by decide⟩
  have gives : GivesHints mixed
      ([plain false "C", plain false "u8"] ++
        ([plain false "i32", plain true "u64", aligned] ++ [])) :=
    .list rfl (.cons _ false (.cons _ false .nil)) (.other (by decide)
      (.list rfl (.cons (plain false "i32") false (.cons (plain true "u64") false (.last aligned)))
        .nil))
  have types : GivesHints [hints [word "u8", comma, word "i32"]]
      ([plain false "u8", plain false "i32"] ++ []) :=
    .list rfl (.cons (plain false "u8") false (.last _)) .nil
  have unsupported : GivesHints [hints [word "i32", comma, word "u128"], hints [word "C"]]
      ([plain false "i32", plain false "u128"] ++ ([plain false "C"] ++ [])) :=
    .list rfl (.cons (plain false "i32") false (.last _)) (.list rfl (.last _) .nil)
  have exact := representation_of_hints gives
  have last : representationOf mixed = .ok .i32 := exact.1.trans (by decide)
  exact ⟨last, (exact.2 _ _ types rfl).trans last,
    (representation_of_hints unsupported).1.trans (by decide)⟩

end EnumNames.Declaration
