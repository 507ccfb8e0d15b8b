import EnumNames.Declaration.Survey
import Mathlib.Data.List.Basic
/-!
# What a survey finds

A survey takes the variants one at a time. A variant that cannot be read adds its fault and nothing
else. Any other variant adds its name, takes over the ends that it is marked as, and is at fault for
those that an earlier one has. So a survey meets no fault exactly if every variant can be read and
neither end is marked twice; then it has collected all variants in order, and each end is the one
variant that is marked as it.
-/
namespace EnumNames.Declaration

/-- What holds of both ends holds of either one. -/
theorem Side.forall_iff {property : Side → Prop} :
    (∀ side, property side) ↔ property .lower ∧ property .upper :=
  ⟨fun all => ⟨all .lower, all .upper⟩, fun ⟨first, last⟩ side => by cases side <;> assumption⟩

/-- Whether the range begins or ends with a variant. -/
def Markers.marks (markers : Markers) : Side → Bool
  | .lower => markers.lower
  | .upper => markers.upper

/-- The variant that is marked as an end. -/
def Survey.marker (survey : Survey) : Side → Option Word
  | .lower => survey.lowerMarker
  | .upper => survey.upperMarker

namespace Variant

/-- How a variant is marked, which is a fault if it has fields or if its attributes have one. -/
def read (variant : Variant) : Except Fault Markers :=
  if variant.isUnit then Markers.ofAttributes variant.attributes else .error .hasFields

/-- Whether a variant can be read and is marked as an end. -/
def marks (side : Side) (variant : Variant) : Bool :=
  match variant.read with
  | .ok markers => markers.marks side
  | .error _ => false

variable {variant : Variant} {markers : Markers} {fault : Fault} {side : Side}

/-- A variant can be read exactly if it has no fields and its attributes have no fault. -/
theorem exists_read_eq_ok_iff :
    (∃ markers, variant.read = .ok markers) ↔
      variant.isUnit ∧ ∃ markers, Markers.ofAttributes variant.attributes = .ok markers := by
  rw [read]
  cases variant.isUnit with
  | true => simp
  | false => simp

/-- A variant that can be read is marked as its attributes say. -/
theorem marks_of_ok (found : variant.read = .ok markers) :
    variant.marks side = markers.marks side := by
  rw [marks, found]

/-- A variant that cannot be read is not marked. -/
theorem marks_of_error (refused : variant.read = .error fault) : variant.marks side = false := by
  rw [marks, refused]

end Variant

namespace Survey

variable {survey : Survey} {variant : Variant} {markers : Markers} {fault : Fault} {side : Side}
  {variants : List Variant}

/-- The faults of markers for ends that earlier variants are marked as. -/
def repeated (survey : Survey) (markers : Markers) : List Fault :=
  ([.lower, .upper].filter fun side => markers.marks side && (survey.marker side).isSome).map
    .markedTwice

/-- Markers repeat none exactly if they are all new. -/
theorem repeated_eq_nil_iff :
    survey.repeated markers = [] ↔ ∀ side, markers.marks side → survey.marker side = none := by
  rw [repeated, List.map_eq_nil_iff, List.filter_eq_nil_iff]
  simp [Side.forall_iff]

/-! ## One variant -/

/-- A variant that cannot be read adds its fault. -/
theorem addVariant_of_error (refused : variant.read = .error fault) :
    survey.addVariant variant = survey.fail fault := by
  rw [Variant.read] at refused
  rw [addVariant]
  cases unit : variant.isUnit with
  | false =>
    rw [unit] at refused
    cases refused
    rfl
  | true =>
    rw [unit, if_pos rfl] at refused
    simp [refused]

/-- A variant that can be read adds its name and its markers, with a fault for each marker that is
not new. -/
theorem addVariant_of_ok (found : variant.read = .ok markers) :
    survey.addVariant variant = {
      faults := survey.faults ++ survey.repeated markers
      enumerators := survey.enumerators ++ [variant.name]
      lowerMarker := if markers.lower then some variant.name else survey.lowerMarker
      upperMarker := if markers.upper then some variant.name else survey.upperMarker } := by
  rw [Variant.read] at found
  rw [addVariant]
  cases unit : variant.isUnit with
  | false =>
    rw [unit] at found
    cases found
  | true =>
    rw [unit, if_pos rfl] at found
    obtain ⟨lower, upper⟩ := markers
    simp only [found, repeated, Markers.marks, marker, Bool.not_true, Bool.false_eq_true, if_false]
    -- Either marker is there or not, and if it is, it is new or not.
    cases lower <;> cases upper <;> cases first : survey.lowerMarker <;>
      cases last : survey.upperMarker <;> simp [markLower, markUpper, fail, first, last]

/-- The last variant that is marked as an end is that end. -/
theorem marker_addVariant :
    (survey.addVariant variant).marker side =
      if variant.marks side then some variant.name else survey.marker side := by
  cases found : variant.read with
  | error fault =>
    rw [addVariant_of_error found, Variant.marks_of_error found]
    cases side <;> rfl
  | ok markers =>
    rw [addVariant_of_ok found, Variant.marks_of_ok found]
    cases side <;> rfl

/-- A survey stays without fault exactly if the variant can be read and its markers are new. -/
theorem faults_addVariant_eq_nil_iff :
    (survey.addVariant variant).faults = [] ↔
      survey.faults = [] ∧ (∃ markers, variant.read = .ok markers) ∧
        ∀ side, variant.marks side → survey.marker side = none := by
  cases found : variant.read with
  | error fault =>
    rw [addVariant_of_error found, fail]
    simp
  | ok markers =>
    have marked : ∀ side, variant.marks side = markers.marks side :=
      fun side => Variant.marks_of_ok found
    rw [addVariant_of_ok found, List.append_eq_nil_iff, repeated_eq_nil_iff]
    simp [marked]

/-! ## All variants -/

/-- An end is the last variant that is marked as it, or what it was before. -/
theorem marker_foldl_addVariant :
    (variants.foldl addVariant survey).marker side =
      (((variants.filter (·.marks side)).getLast?.map (·.name)).or (survey.marker side)) := by
  induction variants generalizing survey with
  | nil => rfl
  | cons variant later ih =>
    rw [List.foldl_cons, ih, marker_addVariant, List.filter_cons]
    cases variant.marks side with
    | false => rfl
    | true =>
      rw [if_pos rfl, if_pos rfl, List.getLast?_cons]
      cases (later.filter (·.marks side)).getLast? <;> rfl

/-- Variants that can be read are all collected. -/
theorem enumerators_foldl_addVariant
    (readable : ∀ variant ∈ variants, ∃ markers, variant.read = .ok markers) :
    (variants.foldl addVariant survey).enumerators =
      survey.enumerators ++ variants.map (·.name) := by
  induction variants generalizing survey with
  | nil => simp
  | cons variant later ih =>
    obtain ⟨markers, found⟩ := readable variant List.mem_cons_self
    have others : ∀ other ∈ later, ∃ markers, other.read = .ok markers :=
      fun other member => readable other (List.mem_cons_of_mem variant member)
    rw [List.foldl_cons, ih others, addVariant_of_ok found, List.append_assoc]
    rfl

/-- A survey of variants meets no fault exactly if all of them can be read and each end is marked
once at most, what was marked before included. -/
theorem faults_foldl_addVariant_eq_nil_iff :
    (variants.foldl addVariant survey).faults = [] ↔
      survey.faults = [] ∧ (∀ variant ∈ variants, ∃ markers, variant.read = .ok markers) ∧
        ∀ side, (survey.marker side).toList.length + variants.countP (·.marks side) ≤ 1 := by
  induction variants generalizing survey with
  | nil =>
    have once : ∀ side, (survey.marker side).toList.length ≤ 1 := by
      intro side
      cases survey.marker side <;> simp
    simp [once]
  | cons variant later ih =>
    have count : ∀ side, ((variant.marks side → survey.marker side = none) ∧
        ((survey.addVariant variant).marker side).toList.length +
          later.countP (·.marks side) ≤ 1) ↔
        (survey.marker side).toList.length + (variant :: later).countP (·.marks side) ≤ 1 := by
      intro side
      rw [marker_addVariant, List.countP_cons]
      cases variant.marks side with
      | false => simp
      | true =>
        cases survey.marker side with
        | none =>
          simp only [if_true, Option.toList_some, Option.toList_none, List.length_singleton,
            List.length_nil, implies_true, true_and]
          omega
        | some name => simp
    rw [List.foldl_cons, ih, faults_addVariant_eq_nil_iff, List.forall_mem_cons]
    simp only [← count, forall_and]
    tauto

/-! ## Ends -/

variable {declaration : Declaration} {given : Option End}

/-- A check of an end keeps the variants. -/
@[simp] theorem enumerators_checkEnd :
    (survey.checkEnd declaration given).enumerators = survey.enumerators := by
  unfold checkEnd
  split
  · split <;> rfl
  · rfl

/-- A check of an end keeps what is marked. -/
@[simp] theorem marker_checkEnd :
    (survey.checkEnd declaration given).marker side = survey.marker side := by
  unfold checkEnd
  split
  · split <;> cases side <;> rfl
  · rfl

/-- An end is without fault exactly if it is not given by a name that no variant has. -/
theorem faults_checkEnd_eq_nil_iff :
    (survey.checkEnd declaration given).faults = [] ↔
      survey.faults = [] ∧ ∀ name, given = some (.variant name) →
        ∃ variant ∈ declaration.variants, variant.name = name := by
  unfold checkEnd
  split
  · next name =>
    by_cases known : ∃ variant ∈ declaration.variants, variant.name = name
    · rw [if_pos (by simpa using known)]
      simpa using fun _ => known
    · rw [if_neg (by simpa using known), fail]
      simpa using fun _ => known
  · next other =>
    refine (and_iff_left fun name same => ?_).symm
    exact absurd same (other name)

end Survey

end EnumNames.Declaration
