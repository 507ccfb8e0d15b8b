import EnumNames.Failure
import EnumNames.Representation
/-!
# Ranges of values

A table is made from a range of values: a first value, and an end that is no longer part of the
range. Each end is given by a bound. An enumerator as the upper bound is still part of the range,
a bare value as the upper bound is not. The laws say which values a range lists and how many.
-/
namespace EnumNames

/-- One end of a range. -/
inductive Bound where
  /-- The value of an enumerator. -/
  | enumerator (value : Int)
  /-- A value, whether or not an enumerator has it. -/
  | underlying (value : Int)
  /-- Nothing was said. -/
  | unset
deriving DecidableEq, Repr

namespace Bound

/-- The bound that a marked variant with this value gives, unset where no variant is marked. -/
def ofMarker : Option Int → Bound
  | some value => enumerator value
  | none => unset

/-- The first value of a range with this lower bound. -/
def start : Bound → Except Refusal Int
  | enumerator value | underlying value => .ok value
  | unset => .error .missingStart

/-- The end of a range with this upper bound. Nothing comes after the greatest value of all, so
as an enumerator it has no end after it. -/
def stop : Bound → Except Refusal Int
  | enumerator value =>
    if value = Representation.i128.greatest then .error (.unrepresentable value)
    else .ok (value + 1)
  | underlying value => .ok value
  | unset => .error .missingStop

end Bound

/-- The values from `start` on that come before `stop`. -/
structure Range where
  /-- The first value. -/
  start : Int
  /-- The value just past the last. -/
  stop : Int
deriving DecidableEq, Repr

namespace Range

/-- A value is in a range from the start on and before the end. -/
instance : Membership Int Range where
  mem range value := range.start ≤ value ∧ value < range.stop

instance (value : Int) (range : Range) : Decidable (value ∈ range) :=
  inferInstanceAs (Decidable (range.start ≤ value ∧ value < range.stop))

/-- Membership is a matter of the two ends. -/
theorem mem_iff {value : Int} {range : Range} :
    value ∈ range ↔ range.start ≤ value ∧ value < range.stop :=
  Iff.rfl

/-- The distance between the ends, in whichever order they are. -/
def width (range : Range) : Nat := (range.stop - range.start).natAbs

/-- The number of values, none where the range ends before it starts. -/
def size (range : Range) : Nat := (range.stop - range.start).toNat

/-- The values of a range in ascending order. -/
def values (range : Range) : List Int :=
  (List.range range.size).map fun offset : Nat => range.start + offset

/-- As many values are listed as there are. -/
@[simp] theorem length_values (range : Range) : range.values.length = range.size := by
  simp [values]

/-- A range that does not end before its start has as many values as it is wide. -/
theorem size_eq_width {range : Range} (ordered : range.start ≤ range.stop) :
    range.size = range.width := by
  simp only [size, width]
  omega

/-- Exactly the values in a range are listed. -/
@[simp] theorem mem_values {value : Int} {range : Range} :
    value ∈ range.values ↔ value ∈ range := by
  simp only [values, size, List.mem_map, List.mem_range, mem_iff]
  constructor
  · rintro ⟨offset, below, rfl⟩
    omega
  · rintro ⟨first, last⟩
    exact ⟨(value - range.start).toNat, by omega, by omega⟩

/-- The values are listed in strictly ascending order. -/
theorem pairwise_values (range : Range) : range.values.Pairwise (· < ·) := by
  rw [values, List.pairwise_map]
  exact List.pairwise_lt_range.imp fun below => by omega

/-- The range between two bounds. It has a value, and its values belong to the representation. -/
def ofBounds (representation : Representation) (lower upper : Bound) : Except Refusal Range := do
  let start ← lower.start
  let stop ← upper.stop
  if stop ≤ start then throw (.emptyRange start stop)
  if start ∉ representation then throw (.unrepresentable start)
  if stop - 1 ∉ representation then throw (.unrepresentable (stop - 1))
  return ⟨start, stop⟩

/-- The range itself, if it is no wider than the ceiling. -/
def within (ceiling : Nat) (range : Range) : Except Refusal Range :=
  if ceiling < range.width then .error (.tooWide range.width ceiling) else .ok range

end Range

end EnumNames
