import EnumNames.Proofs.Declaration.Decimals
import EnumNames.Proofs.Declaration.Faults
import EnumNames.Proofs.Declaration.Options
/-!
# Ends that an option gives

An option that gives an end can stand at any place among the others, and it changes nothing else: what
a declaration expands to has the end, and apart from that and from the table it is what the
declaration without the option expands to. Which ends can be given is said here for integers and for
names. Of the integers all can but one: the magnitude of the least is beyond the limit of its literal.
Of the names those can that a variant has as they are written, with the mark of a raw word or without.
-/
namespace EnumNames.Declaration

open Attribute

/-- The path of the attributes that options stand in. -/
def optionPath : Path := ⟨false, [⟨false, "strenum"⟩]⟩

/-- The tokens of an option that gives an end in these tokens. -/
def endOption (side : Side) (joint : Bool) (spelling : List Token) : List Token :=
  .word ⟨false, side.word⟩ :: .mark '=' joint :: spelling

/-- The declaration is the others with one more option, which gives an end in these tokens. The option
stands in a list of options, behind a comma unless it is the first, and in front of one unless it is the
last. In the others the options in front of it and those behind it have an attribute each. -/
inductive GivesEnd (side : Side) (spelling : List Token) (others : Declaration) :
    Declaration → Prop where
  | intro {before after : List Attribute} {front trail : List Token} (joint : Bool)
      (attributes : others.attributes =
        before ++ ⟨optionPath, .list front⟩ :: ⟨optionPath, .list trail.tail⟩ :: after)
      (opens : OpensItem front) (closes : ClosesItem trail) :
      GivesEnd side spelling others (others.withAttributes
        (before ++ ⟨optionPath, .list (front ++ endOption side joint spelling ++ trail)⟩ :: after))

section Options

variable {side : Side} {spelling : List Token} {others declaration : Declaration}
  {options : Options} {given : End} {fault : Fault}

/-- The option can be the only one. -/
theorem GivesEnd.alone (joint : Bool)
    (attributes : others.attributes = [⟨optionPath, .list []⟩, ⟨optionPath, .list []⟩]) :
    GivesEnd side spelling others
      (others.withAttributes [⟨optionPath, .list (endOption side joint spelling)⟩]) := by
  have gives := @GivesEnd.intro side spelling others [] [] [] [] joint attributes opensItem_nil
    closesItem_nil
  rwa [List.nil_append, List.nil_append, List.append_nil] at gives

/-- The hints of a declaration do not depend on its options. -/
theorem GivesEnd.representationOf_eq (gives : GivesEnd side spelling others declaration) :
    representationOf declaration.attributes = representationOf others.attributes := by
  obtain ⟨joint, attributes, -, -⟩ := gives
  have unnamed : optionPath.name? ≠ some "repr" := by decide
  rw [attributes, attributes_withAttributes, representationOf, representationOf, readAll_append,
    readAll_append]
  simp only [readAll_cons, if_neg unnamed]
  rfl

/-- The path of such an option is the word for the end. -/
theorem read_endOption {joint : Bool} {rest : List Token} :
    ∃ fewer, Path.read (endOption side joint spelling ++ rest) =
      .ok (⟨false, [⟨false, side.word⟩]⟩, ⟨.mark '=' joint :: (spelling ++ rest), fewer⟩) := by
  have ends : Path.readMore (.mark '=' joint :: (spelling ++ rest)) =
      .ok ([], .all _) :=
    Path.readMore_of_head?_ne fun other => by simp
  refine ⟨by simp [endOption], ?_⟩
  simp only [endOption, List.cons_append, Path.read, ends]
  rfl

/-- An option with an end that was not given before is read as the end is. -/
theorem readsItem_endOption {joint : Bool} {rest : List Token} (new : options.givenEnd side = none)
    (read : End.read.Reads (spelling ++ rest) given rest none) :
    ReadsItem Options.readItem options (endOption side joint spelling ++ rest)
      (options.withEnd side given) rest none := by
  obtain ⟨fewer, found⟩ := read_endOption
  exact ⟨_, _, found, Options.reads_readItem_iff.mpr ⟨joint, _, rfl, .bound rfl new read⟩⟩

/-- The fault of an end that was not given before is the fault of its option. -/
theorem readItems_endOption_eq_error {joint : Bool} {rest : List Token}
    (new : options.givenEnd side = none) (failed : End.read (spelling ++ rest) = .error fault) :
    readItems Options.readItem none options (endOption side joint spelling ++ rest) =
      .error fault := by
  obtain ⟨fewer, found⟩ := read_endOption
  apply readItems_eq_error found
  rw [Options.readItem_of_named rfl]
  exact Options.readEnd_eq_error new failed

/-- Where the others have options without this end, the declaration has those in front of it when the
option is read, and with any end in its place it has all of them. -/
theorem GivesEnd.exists_readItems (gives : GivesEnd side spelling others declaration)
    (read : Options.ofAttributes others.attributes = .ok options)
    (absent : options.givenEnd side = none) :
    ∃ (known : Options) (joint : Bool) (trail : List Token) (after : List Attribute),
      known.givenEnd side = none ∧ ClosesItem trail ∧
      Options.ofAttributes declaration.attributes =
        (readItems Options.readItem none known (endOption side joint spelling ++ trail) >>=
          fun final => readAll "strenum" Options.readItem final after) ∧
      ∀ given, (readItems Options.readItem none (known.withEnd side given) trail.tail >>=
        fun final => readAll "strenum" Options.readItem final after) =
          .ok (options.withEnd side given) := by
  obtain @⟨before, after, front, trail, joint, attributes, opens, closes⟩ := gives
  have named : optionPath.name? = some "strenum" := by decide
  rw [attributes, Options.ofAttributes, readAll_append] at read
  obtain ⟨first, begun, read⟩ := exists_of_bind_eq_ok read
  rw [readAll_cons, if_pos named] at read
  obtain ⟨second, front, read⟩ := exists_of_bind_eq_ok read
  rw [readAll_cons, if_pos named] at read
  obtain ⟨third, back, read⟩ := exists_of_bind_eq_ok read
  have items := readItems_eq_ok_iff.mp back
  have later := fun given => readAll_of_commutes (Options.commutes_withEnd side given) read absent
  have behind := fun given =>
    items.of_commutes (Options.commutes_withEnd side given) (later given).1
  refine ⟨second, joint, trail, after, (behind (.underlying 0)).1, closes, ?_, fun given => ?_⟩
  · rw [Options.ofAttributes, attributes_withAttributes, List.append_assoc]
    exact readAll_append_cons Options.delimits_readItem named begun front opens _ _
  · rw [readItems_eq_ok_iff.mpr (behind given).2]
    exact (later given).2

/-- An end that is read from its tokens is added to the options of the others. -/
theorem GivesEnd.ofAttributes_eq_ok (gives : GivesEnd side spelling others declaration)
    (read : Options.ofAttributes others.attributes = .ok options)
    (absent : options.givenEnd side = none)
    (ended : ∀ rest, ClosesItem rest → End.read.Reads (spelling ++ rest) given rest none) :
    Options.ofAttributes declaration.attributes = .ok (options.withEnd side given) := by
  obtain ⟨known, joint, trail, after, new, closes, attributes, added⟩ :=
    gives.exists_readItems read absent
  rw [attributes, readItems_of_readsItem (readsItem_endOption new (ended _ closes)) closes]
  exact added given

/-- A fault that is met in the tokens of an end is the fault of the options. -/
theorem GivesEnd.ofAttributes_eq_error (gives : GivesEnd side spelling others declaration)
    (read : Options.ofAttributes others.attributes = .ok options)
    (absent : options.givenEnd side = none)
    (failed : ∀ rest, ClosesItem rest → End.read (spelling ++ rest) = .error fault) :
    Options.ofAttributes declaration.attributes = .error fault := by
  obtain ⟨known, joint, trail, after, new, closes, attributes, -⟩ :=
    gives.exists_readItems read absent
  rw [attributes, readItems_endOption_eq_error new (failed _ closes)]
  rfl

/-! ## What the declaration expands to -/

/-- The expansion is another one with an end that a side is given, which may bring a table with it. -/
def Expansion.Adds (side : Side) (given : End) (expansion more : Expansion) : Prop :=
  more.options = expansion.options.withEnd side given ∧
    { more with options := expansion.options, table := expansion.table } = expansion

variable {expansion : Expansion}

/-- The declaration is the others apart from its attributes. -/
theorem GivesEnd.eq_withAttributes (gives : GivesEnd side spelling others declaration) :
    declaration = others.withAttributes declaration.attributes := by
  cases gives
  rfl

/-- Where the others expand without this end, a fault that is met in its tokens is the only fault. -/
theorem GivesEnd.expand_eq_error (gives : GivesEnd side spelling others declaration)
    (expanded : others.expand = .ok expansion) (absent : expansion.options.givenEnd side = none)
    (failed : ∀ rest, ClosesItem rest → End.read (spelling ++ rest) = .error fault) :
    declaration.expand = .error [fault] := by
  have options := (describes_of_expand_eq_ok expanded).options
  have refused := gives.ofAttributes_eq_error options absent failed
  rw [gives.eq_withAttributes]
  exact expand_eq_error_of_options expanded gives.representationOf_eq refused

/-- Where the others expand without this end, an end that is read from its tokens is added to what they
expand to, unless it is a name that no variant has. -/
theorem GivesEnd.expand_of_reads (gives : GivesEnd side spelling others declaration)
    (expanded : others.expand = .ok expansion) (absent : expansion.options.givenEnd side = none)
    (read : ∀ rest, ClosesItem rest → End.read.Reads (spelling ++ rest) given rest none) :
    (others.unknownEnd (some given) = [] →
      ∃ more, declaration.expand = .ok more ∧ expansion.Adds side given more) ∧
    (others.unknownEnd (some given) ≠ [] →
      declaration.expand = .error (others.unknownEnd (some given))) := by
  have options := (describes_of_expand_eq_ok expanded).options
  have added := gives.ofAttributes_eq_ok options absent read
  have lower := unknownEnd_eq_nil_of_expand expanded .lower
  have upper := unknownEnd_eq_nil_of_expand expanded .upper
  have ends : others.unknownEnd (expansion.options.withEnd side given).lower ++
      others.unknownEnd (expansion.options.withEnd side given).upper =
        others.unknownEnd (some given) := by
    cases side with
    | lower => exact (congrArg _ upper).trans (List.append_nil _)
    | upper => exact congrArg (· ++ _) lower
  have expands := expand_of_options expanded gives.representationOf_eq added
  simp only [ends] at expands
  rw [gives.eq_withAttributes]
  constructor
  · intro known
    rw [if_pos known] at expands
    exact ⟨_, expands, rfl, rfl⟩
  · intro faulty
    rw [if_neg faulty] at expands
    exact expands

/-! ## Integers -/

/-- Which integers can be given as an end. Of the values of the widest representation, in decimal, all
can but the least: the limit of its literal is the greatest value, and its magnitude is one beyond
that. -/
theorem integer_given_unless_least (side : Side) (value : Int)
    (member : value ∈ Representation.i128) :
    ∃ spelling, Token.ofText? (toString value) = some spelling ∧
      ∀ others declaration expansion, GivesEnd side spelling others declaration →
        others.expand = .ok expansion → expansion.options.givenEnd side = none →
        (value ≠ Representation.i128.least →
          ∃ more, declaration.expand = .ok more ∧ expansion.Adds side (.underlying value) more) ∧
        (value = Representation.i128.least → declaration.expand = .error [.tooLarge]) := by
  refine ⟨_, Token.ofText?_toString value, ?_⟩
  intro others declaration expansion gives expanded absent
  constructor
  · intro other
    have least : Representation.i128.least = -2 ^ 127 := by decide
    have greatest : Representation.i128.greatest = 2 ^ 127 - 1 := by decide
    have small : (value.natAbs : Int) ∈ Representation.i128 := by
      rw [Representation.mem_iff] at member ⊢
      omega
    exact (gives.expand_of_reads expanded absent fun rest closes =>
      End.reads_spelling small closes).1 rfl
  · rintro rfl
    have large : (Representation.i128.least.natAbs : Int) ∉ Representation.i128 := by decide
    exact gives.expand_eq_error expanded absent fun rest closes =>
      End.read_spelling_eq_error large closes

/-- The two least integers as the upper end of a type with a searcher in front of the end and a ceiling
behind it: the least of all is refused, and the one after it is accepted. -/
theorem integer_given_unless_least_extremes :
    let front := [.word ⟨false, "searcher"⟩, .mark '=' false, .word ⟨false, "Sequential"⟩,
      .mark ',' false]
    let trail := [.mark ',' false, .word ⟨false, "max_search_size"⟩, .mark '=' false,
      .literal (.integer 7 "")]
    let others : Declaration := ⟨.enumeration, [], ⟨false, "E"⟩, [],
      [⟨optionPath, .list front⟩, ⟨optionPath, .list trail.tail⟩], [⟨⟨false, "A"⟩, [], true⟩]⟩
    let declaration (value : Int) := others.withAttributes
      [⟨optionPath, .list (front ++ endOption .upper false (End.spelling value) ++ trail)⟩]
    let least := Representation.i128.least
    (∃ more, (declaration (least + 1)).expand = .ok more ∧ more.options =
      { upper := some (.underlying (least + 1))
        searcher := some .sequential
        ceiling := some ⟨7, ""⟩ }) ∧
    (declaration least).expand = .error [.tooLarge] := by
  intro front trail others declaration least
  let expansion : Expansion := ⟨⟨false, "E"⟩, .isize, [⟨false, "A"⟩], none, none,
    { searcher := some .sequential, ceiling := some ⟨7, ""⟩ }, none⟩
  have expanded : others.expand = .ok expansion := by decide +kernel
  have opens : OpensItem front := fun token last => by cases last; rfl
  have closes : ClosesItem trail := fun token first => by cases first; rfl
  have gives (value : Int) :
      GivesEnd .upper (End.spelling value) others (declaration value) :=
    @GivesEnd.intro .upper (End.spelling value) others [] [] front trail false rfl opens closes
  obtain ⟨next, spelled_next, exact_next⟩ :=
    integer_given_unless_least .upper (least + 1) (by decide)
  obtain ⟨first, spelled, exact⟩ := integer_given_unless_least .upper least (by decide)
  rw [Token.ofText?_toString] at spelled_next spelled
  cases spelled_next
  cases spelled
  obtain ⟨more, accepted, options, -⟩ :=
    (exact_next others _ expansion (gives _) expanded rfl).1 (by decide)
  exact ⟨⟨more, accepted, options⟩, (exact others _ expansion (gives _) expanded rfl).2 rfl⟩

/-- The least integer belongs to the widest representation, and as the only option of a type with a
variant it is a fault. -/
theorem least_integer_refused :
    let least := Representation.i128.least
    let others : Declaration := ⟨.enumeration, [], ⟨false, "E"⟩, [],
      [⟨optionPath, .list []⟩, ⟨optionPath, .list []⟩], [⟨⟨false, "A"⟩, [], true⟩]⟩
    let declaration := others.withAttributes
      [⟨optionPath, .list (endOption .lower false (End.spelling least))⟩]
    least ∈ Representation.i128 ∧
      Token.ofText? (toString least) = some (End.spelling least) ∧
      GivesEnd .lower (End.spelling least) others declaration ∧
      (∃ expansion, others.expand = .ok expansion ∧ expansion.options = {}) ∧
      declaration.expand = .error [.tooLarge] := by
  intro least others declaration
  refine ⟨by decide, Token.ofText?_toString least, ?_, ?_, by decide +kernel⟩
  · exact .alone false rfl
  · exact ⟨⟨⟨false, "E"⟩, .isize, [⟨false, "A"⟩], none, none, {}, none⟩, by decide +kernel, rfl⟩

/-! ## Names -/

/-- Which names can be given as an end: those that a variant has as they are written. The mark of a raw
word is part of the name, so a variant with the same plain name does not do. -/
theorem name_given_iff_written (side : Side) (name : Word) (starts : name.startsPath)
    (others declaration : Declaration) (expansion : Expansion)
    (gives : GivesEnd side [.word name] others declaration)
    (expanded : others.expand = .ok expansion) (absent : expansion.options.givenEnd side = none) :
    ((∃ variant ∈ declaration.variants, variant.name = name) →
      ∃ more, declaration.expand = .ok more ∧ expansion.Adds side (.variant name) more) ∧
    ((¬∃ variant ∈ declaration.variants, variant.name = name) →
      declaration.expand = .error [.noSuchVariant name declaration.name]) := by
  obtain ⟨accepted, refused⟩ := gives.expand_of_reads expanded absent fun rest closes =>
    End.reads_word starts closes
  have variants : declaration.variants = others.variants := by
    rw [gives.eq_withAttributes]
    rfl
  have type : declaration.name = others.name := by
    rw [gives.eq_withAttributes]
    rfl
  rw [unknownEnd_variant] at accepted refused
  rw [variants, type]
  constructor
  · intro known
    rw [if_pos known] at accepted
    exact accepted rfl
  · intro unknown
    rw [if_neg unknown] at refused
    exact refused (List.cons_ne_nil _ _)

/-- A type whose variant has a raw name: by that name it is accepted, and by the plain one it is not. -/
theorem name_given_iff_written_raw :
    let others : Declaration := ⟨.enumeration, [], ⟨false, "E"⟩, [],
      [⟨optionPath, .list []⟩, ⟨optionPath, .list []⟩], [⟨⟨true, "A"⟩, [], true⟩]⟩
    let declaration (name : Word) := others.withAttributes
      [⟨optionPath, .list (endOption .lower false [.word name])⟩]
    (∃ more, (declaration ⟨true, "A"⟩).expand = .ok more ∧
      more.options = { lower := some (.variant ⟨true, "A"⟩) }) ∧
    (declaration ⟨false, "A"⟩).expand = .error [.noSuchVariant ⟨false, "A"⟩ ⟨false, "E"⟩] := by
  intro others declaration
  let expansion : Expansion := ⟨⟨false, "E"⟩, .isize, [⟨true, "A"⟩], none, none, {}, none⟩
  have expanded : others.expand = .ok expansion := by decide +kernel
  have gives (name : Word) : GivesEnd .lower [.word name] others (declaration name) :=
    .alone false rfl
  have written := name_given_iff_written .lower ⟨true, "A"⟩ (by decide) others _ expansion (gives _)
    expanded rfl
  have plain := name_given_iff_written .lower ⟨false, "A"⟩ (by decide) others _ expansion (gives _)
    expanded rfl
  obtain ⟨more, accepted, options, -⟩ := written.1 (by decide)
  exact ⟨⟨more, accepted, options⟩, plain.2 (by decide)⟩

/-- The only variant and the word of the option are the same identifier, but one is written as a raw word
and the other is not, and the option is a fault. -/
theorem raw_name_refused_for_mark :
    let others : Declaration := ⟨.enumeration, [], ⟨false, "E"⟩, [],
      [⟨optionPath, .list []⟩, ⟨optionPath, .list []⟩], [⟨⟨false, "A"⟩, [], true⟩]⟩
    let name : Word := ⟨true, "A"⟩
    let declaration := others.withAttributes
      [⟨optionPath, .list (endOption .lower false [.word name])⟩]
    (∃ variant ∈ declaration.variants, variant.name.plain = name.plain) ∧
      GivesEnd .lower [.word name] others declaration ∧
      (∃ expansion, others.expand = .ok expansion ∧ expansion.options = {}) ∧
      declaration.expand = .error [.noSuchVariant name ⟨false, "E"⟩] := by
  intro others name declaration
  refine ⟨by decide, ?_, ?_, by decide +kernel⟩
  · exact .alone false rfl
  · exact ⟨⟨⟨false, "E"⟩, .isize, [⟨false, "A"⟩], none, none, {}, none⟩, by decide +kernel, rfl⟩

end Options

end EnumNames.Declaration
