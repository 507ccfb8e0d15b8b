import EnumNames.Declaration.Expansion
import EnumNames.Proofs.Declaration.Survey
/-!
# Which declarations expand, and to what

Faults are collected from every part of a declaration, and a declaration expands if there are none.
Here both directions are said part by part: what a declaration has to be like for that, and what its
expansion then says, each field of it as the declaration has it.
-/
namespace EnumNames.Declaration

/-- The variant that is marked as an end. -/
def Expansion.marker (expansion : Expansion) : Side → Option Word
  | .lower => expansion.lowerMarker
  | .upper => expansion.upperMarker

/-- The declarations without fault. -/
structure Expandable (declaration : Declaration) : Prop where
  /-- An enumeration is declared. -/
  enumeration : declaration.kind = .enumeration
  /-- It has no parameters. -/
  unparameterized : declaration.isParameterized = false
  /-- Its hints on the representation have no fault. -/
  represented : ∃ representation, representationOf declaration.attributes = .ok representation
  /-- Its options have no fault, and an end that they give by name is a variant as it is written. -/
  configured : ∃ options, Options.ofAttributes declaration.attributes = .ok options ∧
    ∀ side name, options.givenEnd side = some (.variant name) →
      ∃ variant ∈ declaration.variants, variant.name = name
  /-- Its variants have no fields, and their attributes have no fault. -/
  readable : ∀ variant ∈ declaration.variants,
    variant.isUnit ∧ ∃ markers, Markers.ofAttributes variant.attributes = .ok markers
  /-- Either end is marked at most once. -/
  marked : ∀ side, declaration.variants.countP (·.marks side) ≤ 1

/-- An expansion says what a declaration has. -/
structure Expansion.Describes (expansion : Expansion) (declaration : Declaration) : Prop where
  /-- The name is that of the declaration. -/
  type : expansion.type = declaration.name
  /-- The representation is the one that the hints give. -/
  representation : representationOf declaration.attributes = .ok expansion.representation
  /-- The options are those of the attributes. -/
  options : Options.ofAttributes declaration.attributes = .ok expansion.options
  /-- The enumerators are the variants in their order. -/
  enumerators : expansion.enumerators = declaration.variants.map (·.name)
  /-- An end is marked exactly by the variant that carries the marker. -/
  marker : ∀ side name, expansion.marker side = some name ↔
    ∃ variant ∈ declaration.variants, variant.marks side ∧ variant.name = name
  /-- There is a table, seen from where the type is, exactly if both ends are given or marked and
  the search is not for flags. -/
  table : ∀ visibility, expansion.table = some visibility ↔
    ((∀ side, (expansion.options.givenEnd side).isSome ∨ (expansion.marker side).isSome) ∧
      expansion.options.searcher ≠ some .bitflag) ∧ declaration.visibility = visibility

section Parts

variable {α : Type} {absent part : α} {answer : Except Fault α}

/-- A part without fault adds none. -/
theorem orFault_of_ok (found : answer = .ok part) : orFault absent answer = (part, []) := by
  rw [found]
  rfl

/-- No fault is added exactly by a part without fault. -/
theorem snd_orFault_eq_nil_iff : (orFault absent answer).2 = [] ↔ ∃ part, answer = .ok part := by
  cases answer with
  | ok part => simp [orFault]
  | error fault => simp [orFault]

end Parts

/-- The survey of all of a declaration: its attributes, its variants, and the ends that are given by
name. -/
def surveyed (declaration : Declaration) : Survey :=
  let representation := orFault .isize (representationOf declaration.attributes)
  let options := orFault {} (Options.ofAttributes declaration.attributes)
  let survey := declaration.variants.foldl Survey.addVariant
    { faults := representation.2 ++ options.2 }
  (survey.checkEnd declaration options.1.lower).checkEnd declaration options.1.upper

/-- What is known of a declaration from the parts of it that have no fault. -/
def outline (declaration : Declaration) : Expansion :=
  let options := (orFault {} (Options.ofAttributes declaration.attributes)).1
  { type := declaration.name
    representation := (orFault .isize (representationOf declaration.attributes)).1
    enumerators := declaration.surveyed.enumerators
    lowerMarker := declaration.surveyed.lowerMarker
    upperMarker := declaration.surveyed.upperMarker
    options
    table := if asksForTable declaration.surveyed options then some declaration.visibility
      else none }

variable {declaration : Declaration} {expansion : Expansion} {side : Side}

/-- A declaration asks for a table if both ends are given or marked and the search is not for
flags. -/
theorem asksForTable_iff {survey : Survey} {options : Options} :
    asksForTable survey options ↔
      (∀ side, (options.givenEnd side).isSome ∨ (survey.marker side).isSome) ∧
        options.searcher ≠ some .bitflag := by
  rw [asksForTable, Side.forall_iff, Bool.and_eq_true, Bool.and_eq_true, Bool.or_eq_true,
    Bool.or_eq_true, bne_iff_ne]
  rfl

/-- An enumeration without parameters expands to what is known of it if its survey met no fault. -/
theorem expand_eq_of_enumeration (enumeration : declaration.kind = .enumeration)
    (unparameterized : declaration.isParameterized = false) :
    declaration.expand =
      if declaration.surveyed.faults = [] then .ok declaration.outline
      else .error declaration.surveyed.faults := by
  rw [expand, if_neg (not_not.mpr enumeration), unparameterized]
  simp only [← List.isEmpty_iff]
  rfl

/-- A declaration expands exactly if it is an enumeration without parameters whose survey meets no
fault, and then to what is known of it. -/
theorem expand_eq_ok_iff_surveyed :
    declaration.expand = .ok expansion ↔
      declaration.kind = .enumeration ∧ declaration.isParameterized = false ∧
        declaration.surveyed.faults = [] ∧ declaration.outline = expansion := by
  by_cases enumeration : declaration.kind = .enumeration
  · cases unparameterized : declaration.isParameterized with
    | false =>
      rw [expand_eq_of_enumeration enumeration unparameterized]
      by_cases faultless : declaration.surveyed.faults = []
      · simp [enumeration, faultless]
      · simp [faultless]
    | true =>
      rw [expand, if_neg (not_not.mpr enumeration), unparameterized]
      simp
  · rw [expand, if_pos enumeration]
    simp [enumeration]

/-- The survey of a declaration marks what its variants are marked as. -/
theorem marker_surveyed :
    declaration.surveyed.marker side =
      (declaration.variants.filter (·.marks side)).getLast?.map (·.name) := by
  rw [surveyed]
  simp only [Survey.marker_checkEnd, Survey.marker_foldl_addVariant]
  cases side <;> exact Option.or_none

/-- The survey of a declaration meets no fault exactly if none of the parts has one, every variant
can be read, either end is marked at most once, and an end given by name is a variant. -/
theorem faults_surveyed_eq_nil_iff :
    declaration.surveyed.faults = [] ↔
      (∃ representation, representationOf declaration.attributes = .ok representation) ∧
      (∃ options, Options.ofAttributes declaration.attributes = .ok options ∧
        ∀ side name, options.givenEnd side = some (.variant name) →
          ∃ variant ∈ declaration.variants, variant.name = name) ∧
      (∀ variant ∈ declaration.variants, ∃ markers, variant.read = .ok markers) ∧
      ∀ side, declaration.variants.countP (·.marks side) ≤ 1 := by
  have unmarked : ∀ faults side, ({ faults : Survey }.marker side).toList.length = 0 := by
    intro faults side
    cases side <;> rfl
  rw [surveyed]
  simp only [Survey.faults_checkEnd_eq_nil_iff, Survey.faults_foldl_addVariant_eq_nil_iff,
    List.append_eq_nil_iff, snd_orFault_eq_nil_iff, unmarked, Nat.zero_add]
  constructor
  · rintro ⟨⟨⟨⟨represented, options, found⟩, readable, marked⟩, lower⟩, upper⟩
    rw [orFault_of_ok found] at lower upper
    exact ⟨represented, ⟨options, found, Side.forall_iff.mpr ⟨lower, upper⟩⟩, readable, marked⟩
  · rintro ⟨represented, ⟨options, found, named⟩, readable, marked⟩
    rw [orFault_of_ok found]
    exact ⟨⟨⟨⟨represented, options, found⟩, readable, marked⟩, named .lower⟩, named .upper⟩

/-- The declarations that expand are those without fault. -/
theorem exists_expand_eq_ok_iff :
    (∃ expansion, declaration.expand = .ok expansion) ↔ declaration.Expandable := by
  simp only [expand_eq_ok_iff_surveyed, faults_surveyed_eq_nil_iff, Variant.exists_read_eq_ok_iff]
  constructor
  · rintro ⟨-, enumeration, unparameterized, ⟨represented, configured, readable, marked⟩, -⟩
    exact ⟨enumeration, unparameterized, represented, configured, readable, marked⟩
  · intro expandable
    exact ⟨_, expandable.enumeration, expandable.unparameterized,
      ⟨expandable.represented, expandable.configured, expandable.readable, expandable.marked⟩, rfl⟩

/-- The only element of a list is its last one. -/
theorem getLast?_map_eq_some_iff {α β : Type} {elements : List α} {image : α → β} {value : β}
    (single : elements.length ≤ 1) :
    elements.getLast?.map image = some value ↔ ∃ element ∈ elements, image element = value := by
  match elements with
  | [] => simp
  | [element] => simp
  | _ :: _ :: _ => simp at single

/-- What a declaration expands to describes it. -/
theorem describes_of_expand_eq_ok (expanded : declaration.expand = .ok expansion) :
    expansion.Describes declaration := by
  obtain ⟨-, -, faultless, rfl⟩ := expand_eq_ok_iff_surveyed.mp expanded
  obtain ⟨⟨representation, represented⟩, ⟨options, configured, -⟩, readable, marked⟩ :=
    faults_surveyed_eq_nil_iff.mp faultless
  have outline_marker : ∀ side,
      declaration.outline.marker side = declaration.surveyed.marker side := by
    intro side
    cases side <;> rfl
  have outline_options : declaration.outline.options = options := by
    rw [outline, orFault_of_ok configured]
  constructor
  · rfl
  · rw [outline, orFault_of_ok represented, represented]
  · rw [outline_options, configured]
  · rw [outline, surveyed]
    simp only [Survey.enumerators_checkEnd]
    exact Survey.enumerators_foldl_addVariant readable
  · intro side name
    have single : (declaration.variants.filter (·.marks side)).length ≤ 1 := by
      rw [← List.countP_eq_length_filter]
      exact marked side
    rw [outline_marker, marker_surveyed, getLast?_map_eq_some_iff single]
    simp [and_assoc]
  · intro visibility
    have asked : asksForTable declaration.surveyed options ↔
        (∀ side, (options.givenEnd side).isSome ∨ (declaration.outline.marker side).isSome) ∧
          options.searcher ≠ some .bitflag := by
      simp only [asksForTable_iff, outline_marker]
    rw [outline_options, ← asked, outline, orFault_of_ok configured]
    simp

/-- The enumeration of an expansion has a signature of the type and the variant for each enumerator,
in order, without the marks of raw words. -/
theorem Expansion.Describes.enumerators_enumeration (describes : expansion.Describes declaration)
    (build : Build) (values : List Int) :
    (expansion.enumeration build values).enumerators =
      declaration.variants.zipWith (fun variant value =>
        ⟨value, build.style.declared declaration.name.plain variant.name.plain⟩) values := by
  rw [Expansion.enumeration, describes.type, describes.enumerators, List.map_zip_eq_zipWith,
    List.zipWith_map_left]
  rfl

/-- A declaration expands exactly if it has no fault, whatever the number of its variants,
attributes and options. Its expansion has all variants in order, the marked variants, and the
representation and options that are read from the attributes; the enumeration it stands for has, in
every build, the signatures of the plain names. -/
theorem expand_exact (declaration : Declaration) :
    ((∃ expansion, declaration.expand = .ok expansion) ↔ declaration.Expandable) ∧
    ∀ expansion, declaration.expand = .ok expansion →
      expansion.Describes declaration ∧
      ∀ (build : Build) (values : List Int),
        (expansion.enumeration build values).name = declaration.name.plain ∧
        (expansion.enumeration build values).enumerators =
          declaration.variants.zipWith (fun variant value =>
            ⟨value, build.style.declared declaration.name.plain variant.name.plain⟩) values := by
  refine ⟨exists_expand_eq_ok_iff, fun expansion expanded => ?_⟩
  have describes := describes_of_expand_eq_ok expanded
  refine ⟨describes, fun build values => ⟨?_, describes.enumerators_enumeration build values⟩⟩
  exact congrArg Word.plain describes.type

/-- A type with a raw name whose table begins with a variant that is given by its raw name, and ends
with one that is marked. -/
theorem expand_exact_raw :
    let declaration : Declaration :=
      { kind := .enumeration
        visibility := []
        name := ⟨true, "type"⟩
        generics := []
        attributes := [⟨⟨false, [⟨false, "strenum"⟩]⟩,
          .list [.word ⟨false, "begin"⟩, .mark '=' false, .word ⟨true, "A"⟩]⟩]
        variants := [⟨⟨true, "A"⟩, [], true⟩,
          ⟨⟨false, "B"⟩, [⟨⟨false, [⟨false, "strenum"⟩]⟩, .list [.word ⟨false, "end"⟩]⟩], true⟩] }
    let expansion : Expansion :=
      { type := ⟨true, "type"⟩
        representation := .isize
        enumerators := [⟨true, "A"⟩, ⟨false, "B"⟩]
        lowerMarker := none
        upperMarker := some ⟨false, "B"⟩
        options := { lower := some (.variant ⟨true, "A"⟩) }
        table := some [] }
    declaration.expand = .ok expansion ∧ declaration.Expandable ∧
      expansion.Describes declaration ∧
      (expansion.enumeration ⟨.qualified, 64⟩ [3, 4]).enumerators =
        [⟨3, Signature.Style.declared .qualified "type" "A"⟩,
          ⟨4, Signature.Style.declared .qualified "type" "B"⟩] := by
  intro declaration expansion
  have expanded : declaration.expand = .ok expansion := by decide +kernel
  obtain ⟨accepted, described⟩ := expand_exact declaration
  obtain ⟨describes, named⟩ := described expansion expanded
  exact ⟨expanded, accepted.mp ⟨expansion, expanded⟩, describes, (named ⟨.qualified, 64⟩ [3, 4]).2⟩

end EnumNames.Declaration
