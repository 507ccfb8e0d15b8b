import EnumNames.Proofs.Declaration.Alike
import EnumNames.Proofs.Declaration.Faults
import EnumNames.Proofs.Declaration.Hints
import Mathlib.Logic.Relation
/-!
# How items are spread over attributes

Items are read alike in one attribute and in several: a comma in the list of an attribute stands in
place of the end of that attribute and the start of the next one of the name. That is so because an
item takes a piece, so no item reaches over the comma, and because what is known is all that one
item leaves to the next.
-/
namespace EnumNames.Declaration

open Token

/-- Two steps give a result exactly if the first gives what the second makes it of. -/
theorem bind_eq_ok_iff {α β : Type} {first : Except Fault α} {next : α → Except Fault β}
    {result : β} :
    first >>= next = .ok result ↔ ∃ middle, first = .ok middle ∧ next middle = .ok result := by
  refine ⟨exists_of_bind_eq_ok, ?_⟩
  rintro ⟨middle, rfl, made⟩
  exact made

namespace Attribute

variable {Known : Type} {item : ItemReader Known} {known final : Known}
  {tokens front back : List Token}

/-! ## Two lists with a comma between -/

/-- Where an item can begin, it can also begin with a comma and any tokens in front. -/
theorem opensItem_append_cons {joint : Bool} (opens : OpensItem tokens) (front : List Token) :
    OpensItem (front ++ .mark ',' joint :: tokens) := by
  intro token last
  rw [Option.mem_def, List.getLast?_append, List.getLast?_cons, Option.some_or] at last
  cases found : tokens.getLast? with
  | none =>
    rw [found] at last
    cases last
    rfl
  | some other =>
    rw [found] at last
    cases last
    exact opens _ found

section Seam

variable {joint : Bool}

/-- Items with a comma between two lists are those of the first list and those of the second. -/
theorem ReadsPieces.of_append_cons (closed : nested [] front) (ends : ¬OpensItem front)
    (items : ReadsPieces item known (front ++ .mark ',' joint :: back) final) :
    ∃ middle, ReadsItems item known front middle ∧ ReadsItems item middle back final := by
  generalize whole : front ++ .mark ',' joint :: back = tokens at items
  induction items generalizing front with
  | nil => simp at whole
  | last first =>
    obtain ⟨more, -, beyond⟩ :=
      first.whole.piece.exists_of_append_eq closed (whole.trans (List.append_nil _).symm)
    simp at beyond
  | @cons _ after final taken rest other first later hypothesis =>
    -- The first item ends in front of the comma between the lists, or of an earlier one.
    obtain ⟨more, rfl, behind⟩ := first.whole.piece.exists_of_append_eq closed whole
    match more with
    | [] =>
      cases behind
      have read := first.reads [] closesItem_nil
      exact ⟨after, .cons read closesItem_nil .nil, later.readsItems⟩
    | _ :: further =>
      cases behind
      rw [first.whole.piece.nested_append_iff, nested_cons rfl] at closed
      have ends_further : ¬OpensItem further :=
        fun opens => ends (opensItem_append_cons opens taken)
      obtain ⟨middle, items, others⟩ := hypothesis closed ends_further rfl
      have closes := closesItem_cons other further
      exact ⟨middle, .cons (first.reads _ closes) closes items, others⟩

/-- The items of one list and those of another are those with a comma between the lists. -/
theorem ReadsPieces.append_cons {middle : Known} (ends : ¬OpensItem front)
    (items : ReadsPieces item known front middle) (others : ReadsItems item middle back final) :
    ReadsItems item known (front ++ .mark ',' joint :: back) final := by
  induction items with
  | nil => exact absurd opensItem_nil ends
  | last first =>
    have closes := closesItem_cons joint back
    exact .cons (first.reads _ closes) closes others
  | @cons _ _ _ taken rest other first _ hypothesis =>
    have closes := closesItem_cons other (rest ++ .mark ',' joint :: back)
    have ends_rest : ¬OpensItem rest := fun opens => ends (opensItem_append_cons opens taken)
    rw [List.append_assoc]
    exact .cons (first.reads _ closes) closes (hypothesis ends_rest others)

/-- A list that is read and does not end in a comma does not end in punctuation at all. -/
theorem ReadsPieces.getLast?_ne (ends : ¬OpensItem tokens)
    (items : ReadsPieces item known tokens final) (char : Char) (joint : Bool) :
    tokens.getLast? ≠ some (.mark char joint) := by
  induction items with
  | nil => exact absurd opensItem_nil ends
  | last first =>
    obtain ⟨front, last, rfl, whole⟩ := first.whole.ends
    intro found
    rw [List.getLast?_concat, Option.some.injEq] at found
    rw [found] at whole
    cases whole
  | @cons _ _ _ taken rest other _ _ hypothesis =>
    have ends_rest : ¬OpensItem rest := fun opens => ends (opensItem_append_cons opens taken)
    have whole := hypothesis ends_rest
    match rest with
    | [] => exact absurd opensItem_nil ends_rest
    | _ :: _ => simpa using whole

/-- With a comma between two lists, of which the first does not end in one, the items are those of
the first list and then those of the second. -/
theorem readsItems_append_cons_iff (apart : Apart item) (closed_front : nested [] front)
    (closed_back : nested [] back) (ends : ¬OpensItem front) :
    ReadsItems item known (front ++ .mark ',' joint :: back) final ↔
      ∃ middle, ReadsItems item known front middle ∧ ReadsItems item middle back final := by
  have closed : nested [] (front ++ .mark ',' joint :: back) :=
    (nested_append closed_front).trans closed_back
  constructor
  · intro items
    exact (apart.readsPieces items closed).of_append_cons closed_front ends
  · rintro ⟨middle, items, others⟩
    exact (apart.readsPieces items closed_front).append_cons ends others

end Seam

/-- An item can begin behind a comma. -/
theorem opensItem_concat_iff {token : Token} :
    OpensItem (tokens ++ [token]) ↔ token.separates := by
  simp [OpensItem]

/-- The same tokens, but for whether punctuation at their end is joined to what follows it. -/
inductive Rejoined : List Token → List Token → Prop where
  /-- The same tokens. -/
  | same (tokens : List Token) : Rejoined tokens tokens
  /-- Punctuation at the end. -/
  | mark (front : List Token) (char : Char) (joint other : Bool) :
      Rejoined (front ++ [.mark char joint]) (front ++ [.mark char other])

namespace Rejoined

variable {joined : List Token} (rejoined : Rejoined front joined)
include rejoined

/-- The groups of the tokens end as before. -/
theorem nested_eq : nested [] joined = nested [] front := by
  cases rejoined with
  | same => rfl
  | mark front char joint other => rw [nested_concat rfl, nested_concat rfl]

/-- An item can begin behind the tokens as before. -/
theorem opensItem_iff : OpensItem joined ↔ OpensItem front := by
  cases rejoined with
  | same => rfl
  | mark front char joint other =>
    rw [opensItem_concat_iff, opensItem_concat_iff, separates_mark]

/-- The items are read as before, since no list ends in punctuation that is no comma. -/
theorem readsItems_iff (apart : Apart item) (closed : nested [] front) (ends : ¬OpensItem front) :
    ReadsItems item known joined final ↔ ReadsItems item known front final := by
  have closed_joined := rejoined.nested_eq.trans closed
  have ends_joined := fun opens => ends (rejoined.opensItem_iff.mp opens)
  cases rejoined with
  | same => rfl
  | mark front char joint other =>
    constructor
    · intro items
      have last := (apart.readsPieces items closed_joined).getLast?_ne ends_joined char other
      exact absurd (List.getLast?_concat ..) last
    · intro items
      have last := (apart.readsPieces items closed).getLast?_ne ends char joint
      exact absurd (List.getLast?_concat ..) last

end Rejoined

/-- A list with a comma between two others is read exactly as the first of them and then the second,
however the first one is joined to the comma. -/
theorem readItems_append_cons_iff (apart : Apart item) {joined : List Token}
    (rejoined : Rejoined front joined) {joint : Bool} (closed_front : nested [] front)
    (closed_back : nested [] back) (ends : ¬OpensItem front) :
    readItems item none known (joined ++ .mark ',' joint :: back) = .ok final ↔
      ∃ middle, readItems item none known front = .ok middle ∧
        readItems item none middle back = .ok final := by
  have closed_joined := rejoined.nested_eq.trans closed_front
  have ends_joined := fun opens => ends (rejoined.opensItem_iff.mp opens)
  simp only [readItems_eq_ok_iff,
    readsItems_append_cons_iff apart closed_joined closed_back ends_joined,
    rejoined.readsItems_iff apart closed_front ends]

/-! ## All attributes of a name -/

variable {name : String} {attributes others : List Attribute}

/-- Attributes are read alike if those of the name are the same. -/
theorem readAll_congr
    (same : attributes.filter (·.path.name? = some name) =
      others.filter (·.path.name? = some name)) :
    readAll name item known attributes = readAll name item known others := by
  rw [readAll, readAll, same]

/-- One attribute of a name is divided: a part of its items, up to a comma, stands in an attribute
of its own, and other attributes may follow that one. -/
inductive Divides (name : String) : List Attribute → List Attribute → Prop where
  /-- The parts are not empty, and all groups in them end. -/
  | intro (before between after : List Attribute) {path : Path} {front joined back : List Token}
      {joint : Bool} (named : path.name? = some name)
      (others : ∀ given ∈ between, given.path.name? ≠ some name) (rejoined : Rejoined front joined)
      (closed_front : nested [] front) (closed_back : nested [] back) (ends : ¬OpensItem front) :
      Divides name
        (before ++ ⟨path, .list (joined ++ .mark ',' joint :: back)⟩ :: (between ++ after))
        (before ++ ⟨path, .list front⟩ :: (between ++ ⟨path, .list back⟩ :: after))

/-- The items of an attribute of the name come first. -/
theorem readAll_list_cons {path : Path} (named : path.name? = some name) :
    readAll name item known (⟨path, .list tokens⟩ :: attributes) =
      readItems item none known tokens >>= fun after => readAll name item after attributes := by
  rw [readAll_cons, if_pos named]
  rfl

/-- Attributes of other names do not count. -/
theorem readAll_append_of_unnamed {between : List Attribute}
    (unnamed : ∀ given ∈ between, given.path.name? ≠ some name) :
    readAll name item known (between ++ attributes) = readAll name item known attributes := by
  apply readAll_congr
  rw [List.filter_append, List.filter_eq_nil_iff.mpr fun given member => by
    simpa using unnamed given member, List.nil_append]

/-- A division of an attribute changes neither whether the attributes of the name are read nor what
is known after them. -/
theorem Divides.readAll_eq_ok_iff (apart : Apart item) (divides : Divides name attributes others) :
    readAll name item known attributes = .ok final ↔
      readAll name item known others = .ok final := by
  cases divides with
  | intro before between after named unnamed rejoined closed_front closed_back ends =>
    rw [readAll_append, readAll_append]
    simp only [readAll_list_cons named, readAll_append_of_unnamed unnamed, bind_eq_ok_iff,
      readItems_append_cons_iff apart rejoined closed_front closed_back ends]
    constructor
    · rintro ⟨known, start, last, ⟨middle, first, second⟩, later⟩
      exact ⟨known, start, middle, first, last, second, later⟩
    · rintro ⟨known, start, middle, first, last, second, later⟩
      exact ⟨known, start, last, ⟨middle, first, second⟩, later⟩

/-- The attributes of another name stay as they are. -/
theorem Divides.filter_eq (divides : Divides name attributes others) {other : String}
    (different : other ≠ name) :
    attributes.filter (·.path.name? = some other) = others.filter (·.path.name? = some other) := by
  cases divides with
  | intro before between after named =>
    have unnamed : ¬some name = some other := fun same => different (Option.some.inj same).symm
    simp [named, unnamed]

end Attribute

/-! ## Declarations -/

/-- The attributes of these names are spread differently: one of them is divided, or they stand
differently among each other and among attributes of other names. -/
inductive Respread (names : List String) : List Attribute → List Attribute → Prop where
  /-- One attribute is divided. -/
  | divided {name : String} {attributes others : List Attribute} (member : name ∈ names)
      (divides : Attribute.Divides name attributes others) : Respread names attributes others
  /-- The attributes of each name stay in their order. -/
  | interleaved {attributes others : List Attribute}
      (same : ∀ name ∈ names, attributes.filter (·.path.name? = some name) =
        others.filter (·.path.name? = some name)) : Respread names attributes others

/-- Attributes that are spread differently are read alike, if they are read. -/
theorem Respread.toOption_readAll {Known : Type} {item : Attribute.ItemReader Known} {known : Known}
    {name : String} {names : List String} {attributes others : List Attribute}
    (respread : Respread names attributes others) (apart : Attribute.Apart item)
    (member : name ∈ names) :
    (Attribute.readAll name item known attributes).toOption =
      (Attribute.readAll name item known others).toOption := by
  cases respread with
  | @divided divided _ _ _ divides =>
    by_cases same : name = divided
    · subst same
      refine Option.ext fun final => ?_
      rw [toOption_eq_some_iff, toOption_eq_some_iff]
      exact divides.readAll_eq_ok_iff apart
    · rw [Attribute.readAll_congr (divides.filter_eq same)]
  | interleaved same => rw [Attribute.readAll_congr (same name member)]

/-- The attributes of a declaration or of one of its variants are spread differently. -/
inductive RespreadStep : Declaration → Declaration → Prop where
  /-- The hints and the options of the declaration. -/
  | front {declaration : Declaration} {attributes : List Attribute}
      (respread : Respread ["repr", "strenum"] declaration.attributes attributes) :
      RespreadStep declaration (declaration.withAttributes attributes)
  /-- The markers of a variant. -/
  | variant {declaration : Declaration} {earlier later : List Variant} {variant : Variant}
      {attributes : List Attribute} (parts : declaration.variants = earlier ++ variant :: later)
      (respread : Respread ["strenum"] variant.attributes attributes) :
      RespreadStep declaration
        { declaration with variants := earlier ++ { variant with attributes } :: later }

/-- Markers that are spread differently mark a variant alike. -/
theorem Variant.facts_of_respread {variant : Variant} {attributes : List Attribute}
    (respread : Respread ["strenum"] variant.attributes attributes) :
    variant.facts = ({ variant with attributes } : Variant).facts := by
  have read : (Markers.ofAttributes variant.attributes).toOption =
      (Markers.ofAttributes attributes).toOption :=
    respread.toOption_readAll Markers.apart_readItem List.mem_cons_self
  rw [facts, facts, Variant.read, Variant.read]
  split
  · rw [read]
  · rfl

/-- Declarations whose attributes are spread differently are alike. -/
theorem RespreadStep.alike {declaration other : Declaration}
    (step : RespreadStep declaration other) : Alike declaration other := by
  cases step with
  | @front attributes respread =>
    have representation : (representationOf declaration.attributes).toOption =
        (representationOf attributes).toOption :=
      respread.toOption_readAll apart_readHint (by decide)
    have options : (Options.ofAttributes declaration.attributes).toOption =
        (Options.ofAttributes attributes).toOption :=
      respread.toOption_readAll Options.apart_readItem (by decide)
    exact ⟨rfl, rfl, rfl, rfl, representation, options, rfl⟩
  | @variant earlier later variant attributes parts respread =>
    refine ⟨rfl, rfl, rfl, rfl, rfl, rfl, ?_⟩
    rw [parts, List.map_append, List.map_append, List.map_cons, List.map_cons,
      Variant.facts_of_respread respread]

/-- It does not matter how options, hints and markers are spread over attributes: declarations that
come from each other by divisions of attributes, made or taken back, and by other places of the
attributes of a name among those of other names, expand to the same, if they expand. -/
theorem expand_of_respread {declaration other : Declaration}
    (respread : Relation.EqvGen RespreadStep declaration other) (expansion : Expansion) :
    declaration.expand = .ok expansion ↔ other.expand = .ok expansion := by
  induction respread with
  | rel _ _ step => exact step.alike.expand_eq_ok_iff
  | refl => exact Iff.rfl
  | symm _ _ _ hypothesis => exact hypothesis.symm
  | trans _ _ _ _ _ first second => exact first.trans second

/-- A list of options and a list of hints are divided and interleaved, with an unrelated attribute
between, and so is a list of markers. -/
theorem expand_of_respread_interleaved :
    let options (tokens : List Token) : Attribute :=
      ⟨⟨false, [⟨false, "strenum"⟩]⟩, .list tokens⟩
    let hints (tokens : List Token) : Attribute := ⟨⟨false, [⟨false, "repr"⟩]⟩, .list tokens⟩
    let unrelated : Attribute := ⟨⟨false, [⟨false, "allow"⟩]⟩, .list [.word ⟨false, "unused"⟩]⟩
    let comma : Token := .mark ',' false
    let option (name value : String) : List Token :=
      [.word ⟨false, name⟩, .mark '=' false, .word ⟨false, value⟩]
    let aligned : List Token :=
      [.word ⟨false, "align"⟩, .opening .parenthesis, .literal (.integer 8 ""),
        .closing .parenthesis]
    let declaration (attributes markers : List Attribute) : Declaration :=
      ⟨.enumeration, [], ⟨false, "E"⟩, [], attributes, [⟨⟨false, "A"⟩, markers, true⟩]⟩
    let joined := declaration
      [options (option "begin" "A" ++ comma :: option "searcher" "Sequential"),
        hints (aligned ++ comma :: [.word ⟨false, "u8"⟩])]
      [options [.word ⟨false, "begin"⟩, comma, .word ⟨false, "end"⟩]]
    let spread := declaration
      [hints aligned, options (option "begin" "A"), unrelated, hints [.word ⟨false, "u8"⟩],
        options (option "searcher" "Sequential")]
      [options [.word ⟨false, "begin"⟩], unrelated, options [.word ⟨false, "end"⟩]]
    Relation.EqvGen RespreadStep joined spread ∧
      ∃ expansion, joined.expand = .ok expansion ∧ spread.expand = .ok expansion ∧
        expansion.representation = .u8 := by
  intro options hints unrelated comma option aligned declaration joined spread
  let begins := option "begin" "A"
  let searches := option "searcher" "Sequential"
  let typed : List Token := [.word ⟨false, "u8"⟩]
  let both := [options [.word ⟨false, "begin"⟩, comma, .word ⟨false, "end"⟩]]
  let either := [options [.word ⟨false, "begin"⟩], options [.word ⟨false, "end"⟩]]
  let mixed :=
    [hints aligned, options begins, unrelated, hints typed, options searches]
  have parts : ∀ markers, (declaration mixed markers).variants =
      [] ++ ⟨⟨false, "A"⟩, markers, true⟩ :: [] := fun _ => rfl
  have ends : ∀ token : Token, token.separates = false → ∀ tokens : List Token,
      tokens.getLast? = some token → ¬OpensItem tokens :=
    fun token other tokens last opens => absurd ((opens token last).symm.trans other) (by decide)
  have first : RespreadStep joined
      (declaration [options begins, options searches, hints (aligned ++ comma :: typed)] both) :=
    .front (.divided (by decide) (.intro [] [] [_] rfl nofun (.same begins) rfl rfl
      (ends _ rfl _ rfl)))
  have second : RespreadStep
      (declaration [options begins, options searches, hints (aligned ++ comma :: typed)] both)
      (declaration [options begins, options searches, hints aligned, hints typed] both) :=
    .front (.divided (by decide) (.intro [_, _] [] [] rfl nofun (.same aligned) rfl rfl
      (ends _ rfl _ rfl)))
  have third : RespreadStep
      (declaration [options begins, options searches, hints aligned, hints typed] both)
      (declaration mixed both) :=
    .front (.interleaved (by decide))
  have fourth : RespreadStep (declaration mixed both) (declaration mixed either) :=
    .variant (parts both) (.divided List.mem_cons_self (.intro [] [] [] rfl nofun
      (.same [.word ⟨false, "begin"⟩]) rfl rfl (ends _ rfl _ rfl)))
  have fifth : RespreadStep (declaration mixed either) spread :=
    .variant (parts either) (.interleaved (by decide))
  have respread : Relation.EqvGen RespreadStep joined spread :=
    ((((Relation.EqvGen.rel _ _ first).trans _ _ _ (.rel _ _ second)).trans _ _ _
      (.rel _ _ third)).trans _ _ _ (.rel _ _ fourth)).trans _ _ _ (.rel _ _ fifth)
  let expansion : Expansion :=
    { type := ⟨false, "E"⟩
      representation := .u8
      enumerators := [⟨false, "A"⟩]
      lowerMarker := some ⟨false, "A"⟩
      upperMarker := some ⟨false, "A"⟩
      options := { lower := some (.variant ⟨false, "A"⟩), searcher := some .sequential }
      table := some [] }
  have expanded : joined.expand = .ok expansion := by decide +kernel
  exact ⟨respread, expansion, expanded, (expand_of_respread respread expansion).mp expanded, rfl⟩

end EnumNames.Declaration
