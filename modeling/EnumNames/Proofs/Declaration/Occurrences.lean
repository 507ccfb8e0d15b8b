import EnumNames.Proofs.Declaration.Expansion
import EnumNames.Proofs.Declaration.Pieces
/-!
# Options that occur more than once

An item of a list begins at the start of the list and behind each comma that stands in no group.
Where all items are read, an option occurs as often as an item begins with its name. Each end may
occur once. The searcher and the ceiling may occur several times, and then the last one counts and
the others are lost.
-/
namespace EnumNames.Declaration

open Token

/-! ## Where items begin -/

/-- The tokens behind each comma that stands in no group, when so many groups are open. -/
def behindCommas (inner : Nat) : List Token → List (List Token)
  | [] => []
  | token :: rest =>
    match token with
    | .opening _ => behindCommas (inner + 1) rest
    | .closing _ => behindCommas (inner - 1) rest
    | _ => if inner = 0 && token.separates then rest :: behindCommas inner rest
      else behindCommas inner rest

/-- The tokens from the start of each item on. -/
def itemStarts (tokens : List Token) : List (List Token) := tokens :: behindCommas 0 tokens

section Starts

variable {token : Token} {taken inner rest : List Token} {delimiter : Delimiter}

/-- Only a comma that stands in no group has an item behind it. -/
theorem behindCommas_cons (plain : token.isDelimiter = false) {groups : Nat}
    (joins : groups = 0 → token.separates = false) :
    behindCommas groups (token :: rest) = behindCommas groups rest := by
  have stays : ¬(groups = 0 && token.separates) := by
    simpa using joins
  cases token with
  | opening delimiter => cases plain
  | closing delimiter => cases plain
  | _ => exact if_neg stays

/-- A comma in a group has no item behind it. -/
theorem behindCommas_cons_of_open (plain : token.isDelimiter = false) {groups : Nat} :
    behindCommas (groups + 1) (token :: rest) = behindCommas (groups + 1) rest :=
  behindCommas_cons plain fun none_open => absurd none_open (Nat.succ_ne_zero groups)

/-- No item begins in a group. -/
theorem behindCommas_append_of_nested (stack : List Delimiter) (closed : nested stack inner) :
    behindCommas (stack.length + 1) (inner ++ .closing delimiter :: rest) =
      behindCommas 0 rest := by
  induction inner generalizing stack with
  | nil =>
    rw [nested, List.isEmpty_iff] at closed
    rw [closed]
    rfl
  | cons token later hypothesis =>
    cases token with
    | opening found => exact hypothesis (found :: stack) closed
    | closing found =>
      cases stack with
      | nil => cases closed
      | cons current stack =>
        rw [nested, Bool.and_eq_true] at closed
        exact hypothesis stack closed.2
    | _ =>
      have closed : nested stack later := (nested_cons rfl).symm.trans closed
      exact (behindCommas_cons_of_open rfl).trans (hypothesis stack closed)

/-- No item begins in a piece but at its start. -/
theorem Piece.behindCommas_append (piece : Piece taken) :
    behindCommas 0 (taken ++ rest) = behindCommas 0 rest := by
  induction piece with
  | nil => rfl
  | token plain joins _ hypothesis =>
    exact (behindCommas_cons plain fun _ => joins).trans hypothesis
  | @group delimiter inner later closed _ hypothesis =>
    rw [List.append_assoc, List.cons_append, List.cons_append]
    exact (behindCommas_append_of_nested [] closed).trans hypothesis

/-- An item alone has one start. -/
theorem Piece.itemStarts_eq (piece : Piece taken) : itemStarts taken = [taken] := by
  have behind : behindCommas 0 (taken ++ []) = [] := piece.behindCommas_append
  rw [List.append_nil] at behind
  rw [itemStarts, behind]

/-- Behind an item and a comma the others begin as they do on their own. -/
theorem Piece.itemStarts_append_cons (piece : Piece taken) (joint : Bool) :
    itemStarts (taken ++ .mark ',' joint :: rest) =
      (taken ++ .mark ',' joint :: rest) :: itemStarts rest := by
  rw [itemStarts, piece.behindCommas_append]
  rfl

end Starts

/-- The starts of the items in an attribute. -/
def Attribute.starts (given : Attribute) : List (List Token) :=
  match given.arguments with
  | .list tokens => itemStarts tokens
  | _ => []

/-- The starts of all items in the attributes that give options. -/
def optionStarts (attributes : List Attribute) : List (List Token) :=
  (attributes.filter (·.path.name? = some "strenum")).flatMap Attribute.starts

/-- Whether an item begins with the name of an option. -/
def beginsOption (option : String) (tokens : List Token) : Bool :=
  tokens.head? = some (.word ⟨false, option⟩)

/-- An item that begins with the name of an end begins with that of no other one. -/
theorem beginsOption_word_iff {side other : Side} {rest : List Token} :
    beginsOption other.word (.word ⟨false, side.word⟩ :: rest) ↔ side = other := by
  cases side <;> cases other <;> simp [beginsOption, Side.word]

/-- The searcher that an item gives. -/
def searcherAt : List Token → Option Searcher
  | .word ⟨false, "searcher"⟩ :: .mark '=' _ :: .word ⟨false, name⟩ :: _ => searcher? name
  | _ => none

/-- The ceiling that an item gives. -/
def ceilingAt : List Token → Option Numeral
  | .word ⟨false, "max_search_size"⟩ :: .mark '=' _ :: .literal (.integer value suffix) :: _ =>
    some ⟨value, suffix⟩
  | _ => none

/-! ## What options add up to -/

/-- The options after items that begin here: each end is counted, and of the searchers and of the
ceilings the last one is left. -/
structure Options.Follows (before : Options) (starts : List (List Token)) (after : Options) :
    Prop where
  /-- An end is there as often as it was before and as it is given. -/
  ends : ∀ side, (after.givenEnd side).toList.length =
    (before.givenEnd side).toList.length + starts.countP (beginsOption side.word)
  /-- The last searcher is left. -/
  searcher : after.searcher = (starts.filterMap searcherAt).getLast?.or before.searcher
  /-- The last ceiling is left. -/
  ceiling : after.ceiling = (starts.filterMap ceilingAt).getLast?.or before.ceiling

namespace Options

variable {options before middle after : Options} {tokens rest : List Token}
  {starts more : List (List Token)} {left : Option Delimiter}

/-- Without items the options stay as they are. -/
theorem Follows.refl (options : Options) : options.Follows [] options :=
  ⟨fun _ => rfl, rfl, rfl⟩

/-- Items behind others add to what these give. -/
theorem Follows.trans (first : before.Follows starts middle) (second : middle.Follows more after) :
    before.Follows (starts ++ more) after := by
  have last : ∀ {α : Type} (front behind : List α) (known : Option α),
      behind.getLast?.or (front.getLast?.or known) = (front ++ behind).getLast?.or known := by
    intro α front behind known
    rw [List.getLast?_append, Option.or_assoc]
  constructor
  · intro side
    rw [second.ends, first.ends, List.countP_append, Nat.add_assoc]
  · rw [second.searcher, first.searcher, List.filterMap_append, last]
  · rw [second.ceiling, first.ceiling, List.filterMap_append, last]

/-- An item whose path is a word on its own begins with that word. -/
theorem eq_of_read_path {path : Path} {later : Later tokens} {name : String}
    (found : Path.read tokens = .ok (path, later)) (named : path.name? = some name) :
    tokens = .word ⟨false, name⟩ :: later.val := by
  have alone : path = ⟨false, [⟨false, name⟩]⟩ := by
    unfold Path.name? at named
    split at named
    · cases named
      rfl
    · cases named
  subst alone
  unfold Path.read at found
  split at found
  · next first rest =>
    obtain ⟨⟨words, ⟨behind, fewer⟩⟩, more, found⟩ := exists_of_bind_eq_ok found
    cases found
    -- The path has no further segments, so nothing was taken behind the first.
    unfold Path.readMore at more
    split at more
    · obtain ⟨_, _, more⟩ := exists_of_bind_eq_ok more
      cases more
    · cases more
    · cases more
      rfl
  · obtain ⟨_, _, found⟩ := exists_of_bind_eq_ok found
    cases found
  · cases found
  · cases found

/-- An option that is read adds what its first tokens give. -/
theorem follows_of_readsItem
    (read : Attribute.ReadsItem readItem options tokens after rest left) :
    options.Follows [tokens] after := by
  obtain ⟨path, later, found, read⟩ := read
  obtain ⟨joint, behind, assigned, sets⟩ := reads_readItem_iff.mp read
  -- An option changes its own field only, and of the counts only the one of its name.
  cases sets with
  | @bound side given _ _ named new _ =>
    obtain rfl := (eq_of_read_path found named).trans (congrArg _ assigned)
    constructor
    · intro other
      rw [List.countP_singleton]
      by_cases same : side = other
      · rw [if_pos (beginsOption_word_iff.mpr same), ← same, givenEnd_withEnd, new]
        rfl
      · rw [if_neg (mt beginsOption_word_iff.mp same), givenEnd_withEnd_of_ne same]
        rfl
    · cases side <;> rfl
    · cases side <;> rfl
  | searcher named read =>
    obtain ⟨name, rfl, -, known, -⟩ := reads_readSearcher_iff.mp read
    obtain rfl := (eq_of_read_path found named).trans (congrArg _ assigned)
    refine ⟨fun side => by cases side <;> rfl, ?_, rfl⟩
    simp [searcherAt, known]
  | ceiling named read =>
    obtain ⟨rfl, -⟩ := reads_readCeiling_iff.mp read
    obtain rfl := (eq_of_read_path found named).trans (congrArg _ assigned)
    exact ⟨fun side => by cases side <;> rfl, rfl, rfl⟩

/-- Options that are read add what all of their items give. -/
theorem follows_of_readsPieces (items : Attribute.ReadsPieces readItem options tokens after) :
    options.Follows (itemStarts tokens) after := by
  induction items with
  | nil => exact ⟨fun _ => rfl, rfl, rfl⟩
  | @last _ _ taken first =>
    have given := follows_of_readsItem (first.reads [] closesItem_nil)
    rw [List.append_nil] at given
    rw [first.whole.piece.itemStarts_eq]
    exact given
  | @cons _ _ _ _ rest joint first _ hypothesis =>
    rw [first.whole.piece.itemStarts_append_cons]
    exact (follows_of_readsItem (first.reads _ (closesItem_cons joint rest))).trans hypothesis

/-- Attributes that are read add what the items of all of them give. -/
theorem follows_of_readAll {attributes : List Attribute}
    (read : Attribute.readAll "strenum" readItem options attributes = .ok after)
    (closed : ∀ given ∈ attributes, ∀ tokens, given.arguments = .list tokens → nested [] tokens) :
    options.Follows (optionStarts attributes) after := by
  induction attributes generalizing options with
  | nil =>
    cases read
    exact .refl _
  | cons given others hypothesis =>
    have closed_others := fun other member => closed other (List.mem_cons_of_mem given member)
    rw [Attribute.readAll_cons] at read
    obtain ⟨middle, first, read⟩ := exists_of_bind_eq_ok read
    have later := hypothesis read closed_others
    rw [optionStarts, List.filter_cons]
    by_cases named : given.path.name? = some "strenum"
    · rw [if_pos named] at first
      rw [if_pos (by simpa using named), List.flatMap_cons]
      obtain ⟨tokens, listed, first⟩ := exists_of_bind_eq_ok first
      have arguments : given.arguments = .list tokens := by
        unfold Attribute.items at listed
        split at listed <;> cases listed
        assumption
      have ends : nested [] tokens := closed given List.mem_cons_self tokens arguments
      have starts : given.starts = itemStarts tokens := by rw [Attribute.starts, arguments]
      rw [starts]
      have items := Attribute.readItems_eq_ok_iff.mp first
      exact (follows_of_readsPieces (apart_readItem.readsPieces items ends)).trans later
    · rw [if_neg named] at first
      rw [if_neg (by simpa using named)]
      cases first
      exact later

end Options

/-- How often the options of a declaration can occur. One that gives an end twice is refused. One
that is accepted has each end exactly as often as it is given, and of the searchers and of the
ceilings, of which there can be several, it has the last one. -/
theorem options_by_occurrence (declaration : Declaration)
    (closed : ∀ given ∈ declaration.attributes, ∀ tokens,
      given.arguments = .list tokens → nested [] tokens) :
    let starts := optionStarts declaration.attributes
    (∀ side : Side, 1 < starts.countP (beginsOption side.word) →
      ∃ faults, declaration.expand = .error faults) ∧
    ∀ expansion, declaration.expand = .ok expansion →
      (∀ side : Side, (expansion.options.givenEnd side).toList.length =
        starts.countP (beginsOption side.word)) ∧
      expansion.options.searcher = (starts.filterMap searcherAt).getLast? ∧
      expansion.options.ceiling = (starts.filterMap ceilingAt).getLast? := by
  intro starts
  have accepted : ∀ expansion, declaration.expand = .ok expansion →
      (∀ side : Side, (expansion.options.givenEnd side).toList.length =
        starts.countP (beginsOption side.word)) ∧
      expansion.options.searcher = (starts.filterMap searcherAt).getLast? ∧
      expansion.options.ceiling = (starts.filterMap ceilingAt).getLast? := by
    intro expansion expanded
    have read := (describes_of_expand_eq_ok expanded).options
    have follows := Options.follows_of_readAll read closed
    refine ⟨fun side => ?_, ?_, ?_⟩
    · rw [follows.ends side]
      cases side <;> simp [Options.givenEnd, starts]
    · rw [follows.searcher, Option.or_none]
    · rw [follows.ceiling, Option.or_none]
  refine ⟨fun side several => ?_, accepted⟩
  cases expanded : declaration.expand with
  | error faults => exact ⟨faults, rfl⟩
  | ok expansion =>
    have counted := (accepted expansion expanded).1 side
    have once : (expansion.options.givenEnd side).toList.length ≤ 1 := by
      cases expansion.options.givenEnd side <;> simp
    omega

/-- A type that gives an end once but two searchers and two ceilings, and one that gives the end
twice. -/
theorem options_by_occurrence_repeated :
    let option (name : String) (value : Token) : List Token :=
      [.word ⟨false, name⟩, .mark '=' false, value]
    let word (name : String) : Token := .word ⟨false, name⟩
    let number (value : Nat) : Token := .literal (.integer value "")
    let comma : Token := .mark ',' false
    let declaration (lists : List (List Token)) : Declaration :=
      { kind := .enumeration
        visibility := []
        name := ⟨false, "E"⟩
        generics := []
        attributes := lists.map fun tokens => ⟨⟨false, [⟨false, "strenum"⟩]⟩, .list tokens⟩
        variants := [⟨⟨false, "A"⟩, [], true⟩] }
    let several := declaration
      [option "searcher" (word "Bitflag") ++ comma :: option "max_search_size" (number 1),
        option "max_search_size" (number 2) ++ comma ::
          (option "begin" (word "A") ++ comma :: option "searcher" (word "Sequential"))]
    let doubled := declaration [option "begin" (word "A"), option "begin" (word "A")]
    (∃ expansion, several.expand = .ok expansion ∧
      expansion.options.searcher = some .sequential ∧ expansion.options.ceiling = some ⟨2, ""⟩) ∧
    ∃ faults, doubled.expand = .error faults := by
  intro option word number comma declaration several doubled
  have closed : ∀ lists : List (List Token), (∀ tokens ∈ lists, nested [] tokens) →
      ∀ given ∈ (declaration lists).attributes, ∀ tokens,
        given.arguments = .list tokens → nested [] tokens := by
    intro lists ends given member tokens listed
    obtain ⟨found, among, rfl⟩ := List.mem_map.mp member
    cases listed
    exact ends _ among
  let expansion : Expansion :=
    { type := ⟨false, "E"⟩
      representation := .isize
      enumerators := [⟨false, "A"⟩]
      lowerMarker := none
      upperMarker := none
      options := {
        lower := some (.variant ⟨false, "A"⟩)
        searcher := some .sequential
        ceiling := some ⟨2, ""⟩ }
      table := none }
  have expanded : several.expand = .ok expansion := by decide +kernel
  have last := (options_by_occurrence several (closed _ (by decide))).2 expansion expanded
  have refused := (options_by_occurrence doubled (closed _ (by decide))).1 .lower (by decide)
  exact ⟨⟨expansion, expanded, last.2.1.trans (by decide), last.2.2.trans (by decide)⟩, refused⟩

/-- A searcher is given twice, which is no fault, and the first one is lost. -/
theorem repeated_searcher_accepted :
    let option (value : String) : List Token :=
      [.word ⟨false, "searcher"⟩, .mark '=' false, .word ⟨false, value⟩]
    let declaration : Declaration :=
      { kind := .enumeration
        visibility := []
        name := ⟨false, "E"⟩
        generics := []
        attributes := [⟨⟨false, [⟨false, "strenum"⟩]⟩,
          .list (option "Bitflag" ++ .mark ',' false :: option "Sequential")⟩]
        variants := [⟨⟨false, "A"⟩, [], true⟩] }
    (optionStarts declaration.attributes).countP (beginsOption "searcher") = 2 ∧
      ∃ expansion, declaration.expand = .ok expansion ∧
        expansion.options.searcher = some .sequential := by
  intro option declaration
  refine ⟨by decide, ⟨⟨false, "E"⟩, .isize, [⟨false, "A"⟩], none, none,
    { searcher := some .sequential }, none⟩, by decide +kernel, rfl⟩

end EnumNames.Declaration
