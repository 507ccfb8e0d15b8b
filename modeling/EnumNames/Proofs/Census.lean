import EnumNames.Proofs.Passes
import Mathlib.Data.List.Dedup
/-!
# How many names a range has

Every name of a range is that of a declared value, and two values never share an entry. So however
wide a range is and however many aliases are declared, it has no more names than there are values
of enumerators in it.
-/
namespace EnumNames.Enumeration

open Signature

variable {enumeration : Enumeration} {style : Style} {range : Range} {value : Int} {name : String}
  {probe : Int → Except Abort (Option String)}

/-- The values in a range that enumerators have, each of them once. -/
def valuesIn (enumeration : Enumeration) (range : Range) : List Int :=
  (enumeration.enumerators.map (·.value)).dedup.filter (· ∈ range)

/-- Exactly the values of enumerators that are in the range are listed. -/
theorem mem_valuesIn :
    value ∈ enumeration.valuesIn range ↔
      value ∈ range ∧ ∃ enumerator ∈ enumeration.enumerators, enumerator.value = value := by
  rw [valuesIn, List.mem_filter, List.mem_dedup, List.mem_map, decide_eq_true_eq, and_comm]

/-- What a probe gives is a name exactly if it answers with one. -/
theorem join_toOption_eq_some_iff :
    (probe value).toOption.join = some name ↔ probe value = .ok (some name) := by
  cases probe value with
  | error cause => simp [Except.toOption]
  | ok answer => simp [Except.toOption]

/-- The names of a range are those that its probes give. -/
theorem mem_namesIn :
    name ∈ namesIn probe range ↔ ∃ value ∈ range, probe value = .ok (some name) := by
  simp only [namesIn, List.mem_filterMap, Range.mem_values, join_toOption_eq_some_iff]

/-- No name of a range is empty. -/
theorem empty_not_mem_namesIn : "" ∉ namesIn (enumeration.nameAt style) range := by
  intro member
  obtain ⟨value, -, answers⟩ := mem_namesIn.mp member
  exact nameAt_ne_empty value answers

/-- A range has no more names than values. -/
theorem length_namesIn_le_size : (namesIn probe range).length ≤ range.size := by
  rw [← range.length_values]
  exact List.length_filterMap_le _ _

/-- A value at which a probe gives a name is that of an enumerator. -/
theorem mem_valuesIn_of_nameAt (inside : value ∈ range)
    (answers : enumeration.nameAt style value = .ok (some name)) :
    value ∈ enumeration.valuesIn range := by
  obtain ⟨enumerator, found, -⟩ := exists_decode_of_nameAt answers
  have member : enumerator ∈ enumeration.enumerators := List.mem_of_find?_eq_some found
  have same : enumerator.value = value := by simpa using List.find?_some found
  exact mem_valuesIn.mpr ⟨inside, enumerator, member, same⟩

/-- There are as many names in a range as values at which a probe gives one. -/
theorem length_namesIn :
    (namesIn probe range).length =
      (range.values.filter fun value => (probe value).toOption.join.isSome).length := by
  rw [namesIn, List.length_filterMap_eq_countP, List.countP_eq_length_filter]

/-- A range has no more names than values of enumerators. -/
theorem length_namesIn_le_valuesIn :
    (namesIn (enumeration.nameAt style) range).length ≤ (enumeration.valuesIn range).length := by
  have distinct : range.values.Nodup := range.pairwise_values.imp ne_of_lt
  rw [length_namesIn]
  apply (distinct.filter _).length_le_of_subset
  intro value member
  obtain ⟨listed, given⟩ := List.mem_filter.mp member
  obtain ⟨name, answers⟩ := Option.isSome_iff_exists.mp given
  have inside : value ∈ range := Range.mem_values.mp listed
  exact mem_valuesIn_of_nameAt inside (join_toOption_eq_some_iff.mp answers)

end EnumNames.Enumeration
