import EnumNames.Proofs.Bounds
/-!
# Refusals for the representation

Two bounds are refused for the representation because of one value, and that value does not belong
to the representation. There is a single exception: an end is a value just past the last one, so
the greatest value of all has none as an enumerator, and it is refused also in the one
representation that it belongs to.
-/
namespace EnumNames

/-- The greatest value of all belongs to the widest representation alone. -/
theorem Representation.greatest_i128_mem_iff {representation : Representation} :
    Representation.i128.greatest ∈ representation ↔ representation = .i128 := by
  cases representation <;> decide

variable {representation : Representation} {lower upper : Bound} {value start last : Int}

namespace Range

/-- The greatest value of all is refused as an inclusive end, whatever the representation. -/
theorem ofBounds_enumerator_greatest (first : lower.start = .ok start) :
    ofBounds representation lower (.enumerator Representation.i128.greatest) =
      .error (.unrepresentable Representation.i128.greatest) := by
  have beyond : (Bound.enumerator Representation.i128.greatest).stop =
      .error (.unrepresentable Representation.i128.greatest) := by
    rw [Bound.stop, if_pos rfl]
  exact ofBounds_of_error first beyond

/-- Unless it is the greatest value of all, an inclusive end is accepted behind a start in front of
it if both belong to the representation. -/
theorem ofBounds_enumerator (first : lower.start = .ok start) (opened : start ∈ representation)
    (ordered : start ≤ last) (closed : last ∈ representation)
    (below : last ≠ Representation.i128.greatest) :
    ofBounds representation lower (.enumerator last) = .ok ⟨start, last + 1⟩ := by
  have ends : (Bound.enumerator last).stop = .ok (last + 1) := if_neg below
  have nonempty : ¬last + 1 ≤ start := by omega
  have final : last + 1 - 1 = last := by omega
  rw [ofBounds_of_ok first ends, final, if_neg nonempty, if_neg (not_not.mpr opened),
    if_neg (not_not.mpr closed)]

/-- A value that a range is refused for does not belong to the representation, unless the upper
bound is the enumerator with nothing past it. -/
theorem not_mem_of_unrepresentable (below : upper ≠ .enumerator Representation.i128.greatest)
    (refused : ofBounds representation lower upper = .error (.unrepresentable value)) :
    value ∉ representation := by
  cases first : lower.start with
  | error refusal =>
    have none : ofBounds representation lower upper = .error refusal := by
      rw [ofBounds, first]
      rfl
    have same : refusal = .unrepresentable value := Except.error.inj (none.symm.trans refused)
    -- A lower bound gives no start for one reason only, and it is not this.
    cases lower with
    | enumerator bound => cases first
    | underlying bound => cases first
    | unset => cases first.trans (congrArg Except.error same)
  | ok start =>
    cases ends : upper.stop with
    | error refusal =>
      rw [ofBounds_of_error first ends] at refused
      have same : refusal = .unrepresentable value := Except.error.inj refused
      rw [same] at ends
      cases upper with
      | enumerator bound =>
        have inside : bound ≠ Representation.i128.greatest := fun last => below (last ▸ rfl)
        rw [Bound.stop, if_neg inside] at ends
        cases ends
      | underlying bound => cases ends
      | unset => cases ends
    | ok stop =>
      rw [ofBounds_of_ok first ends] at refused
      split_ifs at refused with ended opened closed
      · cases refused
      · cases refused
        exact closed
      · cases refused
        exact opened

/-- A range is refused for a value of the representation exactly if the greatest value of all is the
inclusive end and belongs to the representation. -/
theorem exists_mem_unrepresentable_iff :
    (∃ value ∈ representation,
        ofBounds representation lower upper = .error (.unrepresentable value)) ↔
      lower ≠ .unset ∧ upper = .enumerator Representation.i128.greatest ∧
        representation = .i128 := by
  constructor
  · rintro ⟨value, member, refused⟩
    have greatest : upper = .enumerator Representation.i128.greatest := by
      by_contra below
      exact not_mem_of_unrepresentable below refused member
    have given : lower ≠ .unset := by
      rintro rfl
      cases refused
    obtain ⟨start, first⟩ := Bound.exists_start_eq_ok given
    rw [greatest, ofBounds_enumerator_greatest first] at refused
    cases refused
    exact ⟨given, greatest, Representation.greatest_i128_mem_iff.mp member⟩
  · rintro ⟨given, rfl, widest⟩
    obtain ⟨start, first⟩ := Bound.exists_start_eq_ok given
    exact ⟨_, Representation.greatest_i128_mem_iff.mpr widest, ofBounds_enumerator_greatest first⟩

end Range

namespace Enumeration

variable {enumeration : Enumeration}

/-- The check of the width refuses nothing for the representation. -/
theorem range_eq_unrepresentable_iff :
    enumeration.range lower upper = .error (.unrepresentable value) ↔
      Range.ofBounds enumeration.representation lower upper = .error (.unrepresentable value) := by
  rw [Enumeration.range]
  cases made : Range.ofBounds enumeration.representation lower upper with
  | error refusal => simp [bind, Except.bind]
  | ok found =>
    simp only [bind, Except.bind, Range.within]
    split <;> simp

/-- Which refusals for the representation are true. A value that bounds are refused for does not
belong to the representation, with or without the check of the width, except for one pair: the
greatest value of all is refused as an inclusive end in the representation that it belongs to. Any
other inclusive end is accepted where it and a start in front of it belong to the representation,
and only its width can still be refused. -/
theorem unrepresentable_value_foreign_iff (enumeration : Enumeration) (lower upper : Bound) :
    ((∃ value ∈ enumeration.representation,
        Range.ofBounds enumeration.representation lower upper = .error (.unrepresentable value)) ↔
      lower ≠ .unset ∧ upper = .enumerator Representation.i128.greatest ∧
        enumeration.representation = .i128) ∧
    (∀ value, enumeration.range lower upper = .error (.unrepresentable value) ↔
      Range.ofBounds enumeration.representation lower upper = .error (.unrepresentable value)) ∧
    ∀ start last, lower.start = .ok start → start ∈ enumeration.representation → start ≤ last →
      last ∈ enumeration.representation →
      Range.ofBounds enumeration.representation lower (.enumerator last) =
        if last = Representation.i128.greatest then .error (.unrepresentable last)
        else .ok ⟨start, last + 1⟩ := by
  refine ⟨Range.exists_mem_unrepresentable_iff, fun value => range_eq_unrepresentable_iff, ?_⟩
  intro start last first opened ordered closed
  by_cases greatest : last = Representation.i128.greatest
  · rw [if_pos greatest, greatest]
    exact Range.ofBounds_enumerator_greatest first
  · rw [if_neg greatest]
    exact Range.ofBounds_enumerator first opened ordered closed greatest

/-- The values in front of the greatest of all: as an inclusive end the last of them is accepted, and
the greatest is not. -/
theorem unrepresentable_value_foreign_extremes :
    let greatest := Representation.i128.greatest
    let enumeration : Enumeration := ⟨"E", .i128, [], none, none, {}, 1024⟩
    Range.ofBounds .i128 (.underlying (greatest - 1)) (.enumerator (greatest - 1)) =
        .ok ⟨greatest - 1, greatest⟩ ∧
      Range.ofBounds .i128 (.underlying (greatest - 1)) (.enumerator greatest) =
        .error (.unrepresentable greatest) ∧
      enumeration.range (.underlying (greatest - 1)) (.enumerator greatest) =
        .error (.unrepresentable greatest) := by
  intro greatest enumeration
  have exact := unrepresentable_value_foreign_iff enumeration (.underlying (greatest - 1))
    (.enumerator greatest)
  have member : greatest - 1 ∈ enumeration.representation := by decide
  have member_greatest : greatest ∈ enumeration.representation := by decide
  have accepted := exact.2.2 (greatest - 1) (greatest - 1) rfl member (Int.le_refl _) member
  have refused := exact.2.2 (greatest - 1) greatest rfl member (by decide) member_greatest
  rw [if_neg (by decide)] at accepted
  rw [if_pos rfl] at refused
  exact ⟨accepted, refused, (exact.2.1 greatest).mpr refused⟩

/-- The greatest value of all belongs to the widest representation, and as both bounds it is refused
for that representation. -/
theorem greatest_value_refused_as_foreign :
    Representation.i128.greatest ∈ Representation.i128 ∧
      Range.ofBounds .i128 (.enumerator Representation.i128.greatest)
        (.enumerator Representation.i128.greatest) =
          .error (.unrepresentable Representation.i128.greatest) :=
  ⟨by decide, by decide⟩

end Enumeration

end EnumNames
