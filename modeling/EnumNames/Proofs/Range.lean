import EnumNames.Enumeration
import Mathlib.Tactic.SplitIfs
/-!
# Which ranges are accepted

A range needs a start and an end. It is accepted if it has a value, if its first and its last value
belong to the representation, and if it is no wider than the ceiling. All values of an accepted
range belong to the representation then, since its first and its last value do. With both bounds
set, only these checks can refuse a range.
-/
namespace EnumNames

/-- The refusals of a range whose bounds are set. -/
inductive Refusal.OfRange : Refusal → Prop
  /-- The range has no value. -/
  | emptyRange (start stop : Int) : OfRange (.emptyRange start stop)
  /-- A value of the range does not belong to the representation. -/
  | unrepresentable (value : Int) : OfRange (.unrepresentable value)
  /-- The range has too many values. -/
  | tooWide (width ceiling : Nat) : OfRange (.tooWide width ceiling)

variable {representation : Representation} {lower upper : Bound} {range : Range} {refusal : Refusal}
  {start stop : Int}

/-- A bound that is set gives a start. -/
theorem Bound.exists_start_eq_ok (given : lower ≠ .unset) : ∃ start, lower.start = .ok start := by
  cases lower with
  | enumerator value => exact ⟨value, rfl⟩
  | underlying value => exact ⟨value, rfl⟩
  | unset => exact absurd rfl given

/-- A bound that is set gives an end, unless it is the greatest value as an enumerator. -/
theorem Bound.exists_stop_eq_ok_or_unrepresentable (given : upper ≠ .unset) :
    (∃ stop, upper.stop = .ok stop) ∨ ∃ value, upper.stop = .error (.unrepresentable value) := by
  cases upper with
  | enumerator value =>
    by_cases greatest : value = Representation.i128.greatest
    · exact .inr ⟨value, if_pos greatest⟩
    · exact .inl ⟨value + 1, if_neg greatest⟩
  | underlying value => exact .inl ⟨value, rfl⟩
  | unset => exact absurd rfl given

namespace Range

/-- Without an end there is no range, for the same reason. -/
theorem ofBounds_of_error (first : lower.start = .ok start) (none : upper.stop = .error refusal) :
    ofBounds representation lower upper = .error refusal := by
  rw [ofBounds, first, none]
  rfl

/-- With a start and an end, it is checked in turn that there is a value, that the first value
belongs to the representation, and that the last one does. -/
theorem ofBounds_of_ok (first : lower.start = .ok start) (last : upper.stop = .ok stop) :
    ofBounds representation lower upper =
      if stop ≤ start then .error (.emptyRange start stop)
      else if start ∉ representation then .error (.unrepresentable start)
      else if stop - 1 ∉ representation then .error (.unrepresentable (stop - 1))
      else .ok ⟨start, stop⟩ := by
  rw [ofBounds, first, last]
  simp only [bind, Except.bind, throw, throwThe, MonadExceptOf.throw, pure, Except.pure]

/-- A range is made from a start and an end after it whose first and last values belong to the
representation. -/
theorem ofBounds_eq_ok_iff :
    ofBounds representation lower upper = .ok range ↔
      lower.start = .ok range.start ∧ upper.stop = .ok range.stop ∧
        range.start < range.stop ∧ range.start ∈ representation ∧
        range.stop - 1 ∈ representation := by
  cases first : lower.start with
  | error refusal =>
    rw [ofBounds, first]
    simp [bind, Except.bind]
  | ok start =>
    cases last : upper.stop with
    | error refusal =>
      rw [ofBounds_of_error first last]
      simp
    | ok stop =>
      rw [ofBounds_of_ok first last, Except.ok.injEq, Except.ok.injEq]
      split_ifs with ended opened closed
      · simp only [false_iff]
        rintro ⟨rfl, rfl, below, -⟩
        omega
      · constructor
        · rintro ⟨⟩
          exact ⟨rfl, rfl, Int.not_le.mp ended, opened, closed⟩
        · rintro ⟨rfl, rfl, -⟩
          rfl
      · simp only [false_iff]
        rintro ⟨-, rfl, -, -, last_mem⟩
        exact closed last_mem
      · simp only [false_iff]
        rintro ⟨rfl, -, -, first_mem, -⟩
        exact opened first_mem

/-- With both bounds set, a range is refused because it has no value or a value that does not
belong to the representation. -/
theorem ofRange_of_ofBounds_eq_error (lower_ne : lower ≠ .unset) (upper_ne : upper ≠ .unset)
    (refused : ofBounds representation lower upper = .error refusal) : refusal.OfRange := by
  obtain ⟨start, first⟩ := Bound.exists_start_eq_ok lower_ne
  rcases Bound.exists_stop_eq_ok_or_unrepresentable upper_ne with ⟨stop, last⟩ | ⟨value, beyond⟩
  · rw [ofBounds_of_ok first last] at refused
    split_ifs at refused <;> cases refused
    · exact .emptyRange start stop
    · exact .unrepresentable (stop - 1)
    · exact .unrepresentable start
  · rw [ofBounds_of_error first beyond] at refused
    cases refused
    exact .unrepresentable value

/-- The values between two of a representation belong to it. -/
theorem mem_representation {value : Int} (opened : range.start ∈ representation)
    (closed : range.stop - 1 ∈ representation) (inside : value ∈ range) :
    value ∈ representation := by
  have least : representation.least ≤ range.start := opened.1
  have greatest : range.stop - 1 ≤ representation.greatest := closed.2
  have first : range.start ≤ value := inside.1
  have last : value < range.stop := inside.2
  apply Representation.mem_iff.mpr
  omega

/-- A range within the ceiling is left as it is. -/
theorem within_eq_ok_iff {ceiling : Nat} {found : Range} :
    found.within ceiling = .ok range ↔ found = range ∧ found.width ≤ ceiling := by
  rw [within]
  by_cases wide : ceiling < found.width
  · rw [if_pos wide]
    simp only [reduceCtorEq, false_iff, not_and]
    omega
  · rw [if_neg wide, Except.ok.injEq]
    exact (and_iff_left (Nat.not_lt.mp wide)).symm

end Range

namespace Enumeration

variable {enumeration : Enumeration}

/-- A range is accepted if its bounds make a range and that is no wider than the ceiling. -/
theorem range_eq_ok_iff :
    enumeration.range lower upper = .ok range ↔
      Range.ofBounds enumeration.representation lower upper = .ok range ∧
        range.width ≤ enumeration.ceiling := by
  rw [Enumeration.range]
  cases made : Range.ofBounds enumeration.representation lower upper with
  | error refusal => simp [bind, Except.bind]
  | ok found =>
    simp only [bind, Except.bind, Range.within_eq_ok_iff, Except.ok.injEq]
    refine and_congr_right fun same => ?_
    rw [same]

/-- An accepted range has as many values as it is wide. -/
theorem size_eq_width_of_range (checked : enumeration.range lower upper = .ok range) :
    range.size = range.width := by
  obtain ⟨-, -, below, -⟩ := Range.ofBounds_eq_ok_iff.mp (range_eq_ok_iff.mp checked).1
  exact Range.size_eq_width (Int.le_of_lt below)

/-- With both bounds set, a range is refused because it has no value, too many, or one that does not
belong to the representation. -/
theorem ofRange_of_range_eq_error (lower_ne : lower ≠ .unset) (upper_ne : upper ≠ .unset)
    (refused : enumeration.range lower upper = .error refusal) : refusal.OfRange := by
  rw [Enumeration.range] at refused
  cases made : Range.ofBounds enumeration.representation lower upper with
  | error cause =>
    rw [made] at refused
    cases refused
    exact Range.ofRange_of_ofBounds_eq_error lower_ne upper_ne made
  | ok found =>
    simp only [made, bind, Except.bind, Range.within] at refused
    split at refused
    · cases refused
      exact .tooWide found.width enumeration.ceiling
    · cases refused

end Enumeration

end EnumNames
