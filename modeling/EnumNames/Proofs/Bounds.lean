import EnumNames.Proofs.Range
import Mathlib.Data.Int.Interval
import Mathlib.Data.Set.Card
/-!
# From bounds to ranges

Two bounds ask for the values from a first one to a last one, whether the upper bound is the last
value itself or a bare value just past it. The range that they make is accepted under four
conditions on these two values, and otherwise the first condition that fails is reported. The steps
are taken on numbers of 128 bits; taken again with operations that overflow outside of 128 bits,
they give the same answer, so none of them overflows.
-/
namespace EnumNames

namespace Bound

/-- The first value that a lower bound asks for. -/
def first? : Bound → Option Int
  | enumerator value | underlying value => some value
  | unset => none

/-- The last value that an upper bound asks for: an enumerator itself, or the value in front of a
bare one. -/
def last? : Bound → Option Int
  | enumerator value => some value
  | underlying value => some (value - 1)
  | unset => none

variable {lower upper : Bound} {first last : Int}

/-- A range starts at the first value asked for. -/
theorem start_of_first? (begins : lower.first? = some first) : lower.start = .ok first := by
  cases lower with
  | enumerator value => exact congrArg Except.ok (Option.some.inj begins)
  | underlying value => exact congrArg Except.ok (Option.some.inj begins)
  | unset => cases begins

/-- A lower bound that asks for no value gives no start. -/
theorem start_of_none (begins : lower.first? = none) : lower.start = .error .missingStart := by
  cases lower with
  | enumerator value => cases begins
  | underlying value => cases begins
  | unset => rfl

/-- A range stops just past the last value asked for, unless that is an enumerator with nothing
past it. -/
theorem stop_of_last? (ends : upper.last? = some last)
    (below : upper ≠ .enumerator Representation.i128.greatest) : upper.stop = .ok (last + 1) := by
  cases upper with
  | enumerator value =>
    obtain rfl : value = last := Option.some.inj ends
    have inside : value ≠ Representation.i128.greatest := fun same => below (same ▸ rfl)
    exact if_neg inside
  | underlying value =>
    obtain rfl : value - 1 = last := Option.some.inj ends
    rw [Int.sub_add_cancel]
    rfl
  | unset => cases ends

/-- An upper bound that asks for no value gives no end. -/
theorem stop_of_none (ends : upper.last? = none) : upper.stop = .error .missingStop := by
  cases upper with
  | enumerator value => cases ends
  | underlying value => cases ends
  | unset => rfl

end Bound

namespace Enumeration

/-- The values from a first one to a last one can be tabulated. -/
structure Admits (enumeration : Enumeration) (first last : Int) : Prop where
  /-- There is a value. -/
  ordered : first ≤ last
  /-- The first value belongs to the representation. -/
  first_mem : first ∈ enumeration.representation
  /-- The last value belongs to the representation. -/
  last_mem : last ∈ enumeration.representation
  /-- There are no more values than may be probed. -/
  fits : last - first + 1 ≤ enumeration.ceiling

/-- The refusal of two bounds: that of the first check that they fail, where all checks in front of
it are passed. -/
inductive Refuses (enumeration : Enumeration) (lower upper : Bound) : Refusal → Prop where
  /-- Nothing is asked for as the first value. -/
  | missingStart (begins : lower.first? = none) : Refuses enumeration lower upper .missingStart
  /-- Nothing is asked for as the last value. -/
  | missingStop {first : Int} (begins : lower.first? = some first) (ends : upper.last? = none) :
      Refuses enumeration lower upper .missingStop
  /-- The last value asked for comes in front of the first. -/
  | emptyRange {first last : Int} (begins : lower.first? = some first)
      (ends : upper.last? = some last) (inverted : last < first) :
      Refuses enumeration lower upper (.emptyRange first (last + 1))
  /-- The first value does not belong to the representation. -/
  | first {first last : Int} (begins : lower.first? = some first)
      (ends : upper.last? = some last) (ordered : first ≤ last)
      (outside : first ∉ enumeration.representation) :
      Refuses enumeration lower upper (.unrepresentable first)
  /-- The last value does not belong to the representation. -/
  | last {first last : Int} (begins : lower.first? = some first)
      (ends : upper.last? = some last) (ordered : first ≤ last)
      (first_mem : first ∈ enumeration.representation)
      (outside : last ∉ enumeration.representation) :
      Refuses enumeration lower upper (.unrepresentable last)
  /-- There are more values than may be probed. -/
  | tooWide {first last : Int} (begins : lower.first? = some first)
      (ends : upper.last? = some last) (ordered : first ≤ last)
      (first_mem : first ∈ enumeration.representation)
      (last_mem : last ∈ enumeration.representation)
      (wide : enumeration.ceiling < last - first + 1) :
      Refuses enumeration lower upper (.tooWide (last - first + 1).toNat enumeration.ceiling)

variable {enumeration : Enumeration} {lower upper : Bound} {first last : Int} {range : Range}
  {refusal : Refusal}

/-- Without a first value there is no range. -/
theorem range_of_first?_eq_none (begins : lower.first? = none) :
    enumeration.range lower upper = .error .missingStart := by
  rw [Enumeration.range, Range.ofBounds, Bound.start_of_none begins]
  rfl

/-- Without a last value there is no range. -/
theorem range_of_last?_eq_none (begins : lower.first? = some first) (ends : upper.last? = none) :
    enumeration.range lower upper = .error .missingStop := by
  have refused : Range.ofBounds enumeration.representation lower upper = .error .missingStop :=
    Range.ofBounds_of_error (Bound.start_of_first? begins) (Bound.stop_of_none ends)
  rw [Enumeration.range, refused]
  rfl

/-- A range is as wide as it has values. -/
theorem width_eq (ordered : first ≤ last) :
    (⟨first, last + 1⟩ : Range).width = (last - first + 1).toNat := by
  show (last + 1 - first).natAbs = (last - first + 1).toNat
  omega

/-- The range from a first value to a last one has exactly the values between the two. -/
theorem mem_range_iff {value : Int} :
    value ∈ (⟨first, last + 1⟩ : Range) ↔ first ≤ value ∧ value ≤ last := by
  rw [Range.mem_iff]
  exact and_congr_right fun _ => Int.lt_add_one_iff

/-- The width counts the values from the first to the last. -/
theorem width_eq_ncard (ordered : first ≤ last) :
    (⟨first, last + 1⟩ : Range).width = {value | first ≤ value ∧ value ≤ last}.ncard := by
  have listed : {value | first ≤ value ∧ value ≤ last} = (Finset.Icc first last : Set Int) :=
    (Finset.coe_Icc first last).symm
  have count : (last - first + 1).toNat = (last + 1 - first).toNat := by omega
  rw [width_eq ordered, listed, Set.ncard_coe_finset, Int.card_Icc, count]

/-- With a first and a last value, it is checked in turn that they are in order, that the first
belongs to the representation, that the last does, and that no more values are asked for than may
be probed. -/
theorem range_of_values (begins : lower.first? = some first) (ends : upper.last? = some last)
    (below : upper ≠ .enumerator Representation.i128.greatest) :
    enumeration.range lower upper =
      if last < first then .error (.emptyRange first (last + 1))
      else if first ∉ enumeration.representation then .error (.unrepresentable first)
      else if last ∉ enumeration.representation then .error (.unrepresentable last)
      else if enumeration.ceiling < last - first + 1 then
        .error (.tooWide (last - first + 1).toNat enumeration.ceiling)
      else .ok ⟨first, last + 1⟩ := by
  have made : Range.ofBounds enumeration.representation lower upper =
      if last < first then .error (.emptyRange first (last + 1))
      else if first ∉ enumeration.representation then .error (.unrepresentable first)
      else if last ∉ enumeration.representation then .error (.unrepresentable last)
      else .ok ⟨first, last + 1⟩ := by
    have start := Bound.start_of_first? begins
    have stop := Bound.stop_of_last? ends below
    simpa only [Int.add_sub_cancel, Int.add_one_le_iff] using Range.ofBounds_of_ok start stop
  rw [Enumeration.range, made]
  split_ifs with inverted opened closed wide
  · rfl
  · show Range.within enumeration.ceiling ⟨first, last + 1⟩ = _
    rw [Range.within, width_eq (Int.not_lt.mp inverted), if_pos (by omega)]
  · show Range.within enumeration.ceiling ⟨first, last + 1⟩ = _
    rw [Range.within, width_eq (Int.not_lt.mp inverted), if_neg (by omega)]
  · rfl
  · rfl

/-- Two bounds ask for values that can be tabulated, or they fail a check first. -/
theorem admits_or_refuses (enumeration : Enumeration) (lower upper : Bound) :
    (∃ first last, lower.first? = some first ∧ upper.last? = some last ∧
      enumeration.Admits first last) ∨ ∃ refusal, enumeration.Refuses lower upper refusal := by
  cases begins : lower.first? with
  | none => exact .inr ⟨_, .missingStart begins⟩
  | some first =>
    cases ends : upper.last? with
    | none => exact .inr ⟨_, .missingStop begins ends⟩
    | some last =>
      by_cases inverted : last < first
      · exact .inr ⟨_, .emptyRange begins ends inverted⟩
      have ordered : first ≤ last := Int.not_lt.mp inverted
      by_cases first_mem : first ∈ enumeration.representation
      · by_cases last_mem : last ∈ enumeration.representation
        · by_cases wide : enumeration.ceiling < last - first + 1
          · exact .inr ⟨_, .tooWide begins ends ordered first_mem last_mem wide⟩
          · have fits : last - first + 1 ≤ enumeration.ceiling := Int.not_lt.mp wide
            exact .inl ⟨first, last, rfl, rfl, ordered, first_mem, last_mem, fits⟩
        · exact .inr ⟨_, .last begins ends ordered first_mem last_mem⟩
      · exact .inr ⟨_, .first begins ends ordered first_mem⟩

/-- All values from the first to the last belong to the representation. -/
theorem Admits.mem_representation {value : Int} (admits : enumeration.Admits first last)
    (above : first ≤ value) (below : value ≤ last) : value ∈ enumeration.representation := by
  have opened := Representation.mem_iff.mp admits.first_mem
  have closed := Representation.mem_iff.mp admits.last_mem
  rw [Representation.mem_iff]
  omega

/-- Values that can be tabulated are accepted. -/
theorem Admits.range_eq (admits : enumeration.Admits first last)
    (begins : lower.first? = some first) (ends : upper.last? = some last)
    (below : upper ≠ .enumerator Representation.i128.greatest) :
    enumeration.range lower upper = .ok ⟨first, last + 1⟩ := by
  rw [range_of_values begins ends below, if_neg (Int.not_lt.mpr admits.ordered),
    if_neg (not_not_intro admits.first_mem), if_neg (not_not_intro admits.last_mem),
    if_neg (Int.not_lt.mpr admits.fits)]

/-- The first check that fails is reported. -/
theorem Refuses.range_eq (refuses : enumeration.Refuses lower upper refusal)
    (below : upper ≠ .enumerator Representation.i128.greatest) :
    enumeration.range lower upper = .error refusal := by
  cases refuses with
  | missingStart begins => exact range_of_first?_eq_none begins
  | missingStop begins ends => exact range_of_last?_eq_none begins ends
  | emptyRange begins ends inverted => rw [range_of_values begins ends below, if_pos inverted]
  | first begins ends ordered outside =>
    rw [range_of_values begins ends below, if_neg (Int.not_lt.mpr ordered), if_pos outside]
  | last begins ends ordered first_mem outside =>
    rw [range_of_values begins ends below, if_neg (Int.not_lt.mpr ordered),
      if_neg (not_not_intro first_mem), if_pos outside]
  | tooWide begins ends ordered first_mem last_mem wide =>
    rw [range_of_values begins ends below, if_neg (Int.not_lt.mpr ordered),
      if_neg (not_not_intro first_mem), if_neg (not_not_intro last_mem), if_pos wide]

/-- Exactly the values that can be tabulated make a range. -/
theorem range_eq_ok_iff_admits (below : upper ≠ .enumerator Representation.i128.greatest) :
    enumeration.range lower upper = .ok range ↔
      ∃ first last, lower.first? = some first ∧ upper.last? = some last ∧
        enumeration.Admits first last ∧ range = ⟨first, last + 1⟩ := by
  constructor
  · intro accepted
    rcases admits_or_refuses enumeration lower upper with
      ⟨first, last, begins, ends, admits⟩ | ⟨refusal, refuses⟩
    · have made := admits.range_eq begins ends below
      exact ⟨first, last, begins, ends, admits, Except.ok.inj (accepted.symm.trans made)⟩
    · have refused := refuses.range_eq below
      cases accepted.symm.trans refused
  · rintro ⟨first, last, begins, ends, admits, rfl⟩
    exact admits.range_eq begins ends below

/-- Exactly the first check that fails is reported. -/
theorem range_eq_error_iff_refuses (below : upper ≠ .enumerator Representation.i128.greatest) :
    enumeration.range lower upper = .error refusal ↔
      enumeration.Refuses lower upper refusal := by
  constructor
  · intro refused
    rcases admits_or_refuses enumeration lower upper with
      ⟨first, last, begins, ends, admits⟩ | ⟨other, refuses⟩
    · have made := admits.range_eq begins ends below
      cases refused.symm.trans made
    · have reported := refuses.range_eq below
      obtain rfl : refusal = other := Except.error.inj (refused.symm.trans reported)
      exact refuses
  · intro refuses
    exact refuses.range_eq below

end Enumeration

/-! ## Operations on 128 bits -/

/-- The result of an addition or a subtraction of numbers of 128 bits, which overflows if the exact
result is no such number. -/
def checked? (result : Int) : Option Int :=
  if result ∈ Representation.i128 then some result else none

/-- An operation does not overflow if its exact result has 128 bits. -/
theorem checked?_eq_some {result : Int} (representable : result ∈ Representation.i128) :
    checked? result = some result :=
  if_pos representable

/-- An operation overflows if its exact result does not have 128 bits. -/
theorem checked?_eq_none {result : Int} (overflows : result ∉ Representation.i128) :
    checked? result = none :=
  if_neg overflows

/-- Of two numbers of 128 bits in order, the greater one has another in front of it. -/
theorem checked?_pred_of_lt {start stop : Int} (start_mem : start ∈ Representation.i128)
    (stop_mem : stop ∈ Representation.i128) (below : start < stop) :
    checked? (stop - 1) = some (stop - 1) := by
  rw [Representation.mem_iff] at start_mem stop_mem
  apply checked?_eq_some
  rw [Representation.mem_iff]
  omega

/-- The distance of two numbers of 128 bits has 128 bits without a sign. -/
theorem width_le_of_mem {start stop : Int} (start_mem : start ∈ Representation.i128)
    (stop_mem : stop ∈ Representation.i128) :
    Range.width ⟨start, stop⟩ ≤ Representation.i128.greatest - Representation.i128.least := by
  rw [Representation.mem_iff] at start_mem stop_mem
  show ((stop - start).natAbs : Int) ≤ Representation.i128.greatest - Representation.i128.least
  omega

namespace Bound

/-- The value of a bound that is set is a number of 128 bits. -/
def IsWord : Bound → Prop
  | enumerator value | underlying value => value ∈ Representation.i128
  | unset => True

/-- The end of a range with this upper bound, where the enumerator is refused if the addition
overflows. -/
def checkedStop : Bound → Except Refusal Int
  | enumerator value =>
    match checked? (value + 1) with
    | some stop => .ok stop
    | none => .error (.unrepresentable value)
  | underlying value => .ok value
  | unset => .error .missingStop

variable {lower upper : Bound} {start stop : Int}

/-- The addition overflows exactly for the enumerator with nothing past it. -/
theorem checkedStop_eq (word : upper.IsWord) : upper.checkedStop = upper.stop := by
  cases upper with
  | enumerator value =>
    obtain ⟨least, greatest⟩ := Representation.mem_iff.mp word
    by_cases last : value = Representation.i128.greatest
    · have overflows : value + 1 ∉ Representation.i128 := by
        rw [Representation.mem_iff]
        omega
      rw [checkedStop, checked?_eq_none overflows, Bound.stop, if_pos last]
    · have representable : value + 1 ∈ Representation.i128 := by
        rw [Representation.mem_iff]
        omega
      rw [checkedStop, checked?_eq_some representable, Bound.stop, if_neg last]
  | underlying value => rfl
  | unset => rfl

/-- A range starts at a number of 128 bits if its lower bound is one. -/
theorem start_mem (word : lower.IsWord) (begins : lower.start = .ok start) :
    start ∈ Representation.i128 := by
  cases lower with
  | enumerator value => exact Except.ok.inj begins ▸ word
  | underlying value => exact Except.ok.inj begins ▸ word
  | unset => cases begins

/-- A range stops at a number of 128 bits if its upper bound is one. -/
theorem stop_mem (word : upper.IsWord) (ends : upper.stop = .ok stop) :
    stop ∈ Representation.i128 := by
  cases upper with
  | enumerator value =>
    obtain ⟨least, greatest⟩ := Representation.mem_iff.mp word
    rw [Bound.stop] at ends
    by_cases last : value = Representation.i128.greatest
    · rw [if_pos last] at ends
      cases ends
    · rw [if_neg last] at ends
      obtain rfl : value + 1 = stop := Except.ok.inj ends
      rw [Representation.mem_iff]
      omega
  | underlying value => exact Except.ok.inj ends ▸ word
  | unset => cases ends

end Bound

namespace Enumeration

variable {enumeration : Enumeration} {lower upper : Bound}

/-- The range between two bounds with the operations of 128 bits. There is no answer if the
subtraction overflows, or if the width is more than an unsigned number of 128 bits can be. -/
def checkedRange? (enumeration : Enumeration) (lower upper : Bound) :
    Option (Except Refusal Range) :=
  match lower.start, upper.checkedStop with
  | .error refusal, _ => some (.error refusal)
  | .ok _, .error refusal => some (.error refusal)
  | .ok start, .ok stop =>
    if stop ≤ start then some (.error (.emptyRange start stop))
    else if start ∉ enumeration.representation then some (.error (.unrepresentable start))
    else
      match checked? (stop - 1) with
      | none => none
      | some last =>
        if last ∉ enumeration.representation then some (.error (.unrepresentable last))
        else if Representation.i128.greatest - Representation.i128.least <
            Range.width ⟨start, stop⟩ then none
        else some (Range.within enumeration.ceiling ⟨start, stop⟩)

/-- No operation overflows between bounds of 128 bits. -/
theorem checkedRange?_eq (lower_word : lower.IsWord) (upper_word : upper.IsWord) :
    enumeration.checkedRange? lower upper = some (enumeration.range lower upper) := by
  rw [checkedRange?, Bound.checkedStop_eq upper_word, Enumeration.range]
  cases begins : lower.start with
  | error refusal =>
    rw [Range.ofBounds, begins]
    rfl
  | ok start =>
    cases ends : upper.stop with
    | error refusal =>
      rw [Range.ofBounds_of_error begins ends]
      rfl
    | ok stop =>
      have start_mem : start ∈ Representation.i128 := Bound.start_mem lower_word begins
      have stop_mem : stop ∈ Representation.i128 := Bound.stop_mem upper_word ends
      rw [Range.ofBounds_of_ok begins ends]
      dsimp only
      by_cases ended : stop ≤ start
      · rw [if_pos ended, if_pos ended]
        rfl
      rw [if_neg ended, if_neg ended]
      by_cases opened : start ∉ enumeration.representation
      · rw [if_pos opened, if_pos opened]
        rfl
      -- The subtraction comes after the check that there is a value, so it cannot pass the start.
      have subtracted := checked?_pred_of_lt start_mem stop_mem (Int.not_le.mp ended)
      rw [if_neg opened, if_neg opened, subtracted]
      dsimp only
      by_cases closed : stop - 1 ∉ enumeration.representation
      · rw [if_pos closed, if_pos closed]
        rfl
      · have narrow := Int.not_lt.mpr (width_le_of_mem start_mem stop_mem)
        rw [if_neg closed, if_neg closed, if_neg narrow]
        rfl

/-- How bounds are resolved. Unless the upper bound is the enumerator with nothing past it, a range
is accepted exactly if its first and its last value can be tabulated. It then has the values between
the two, all of them in the representation, and its width is the number of these values. Otherwise
the first check that fails is reported. For all bounds of 128 bits, the operations of 128 bits
compute the same without overflow. -/
theorem resolution_exact (enumeration : Enumeration) (lower upper : Bound) :
    (upper ≠ .enumerator Representation.i128.greatest →
      (∀ range, enumeration.range lower upper = .ok range ↔
        ∃ first last, lower.first? = some first ∧ upper.last? = some last ∧
          enumeration.Admits first last ∧ range = ⟨first, last + 1⟩) ∧
      (∀ range first last, enumeration.range lower upper = .ok range →
        lower.first? = some first → upper.last? = some last →
        (∀ value, value ∈ range ↔ first ≤ value ∧ value ≤ last) ∧
          (∀ value, first ≤ value → value ≤ last → value ∈ enumeration.representation) ∧
          range.width = {value | first ≤ value ∧ value ≤ last}.ncard) ∧
      ∀ refusal, enumeration.range lower upper = .error refusal ↔
        enumeration.Refuses lower upper refusal) ∧
    (lower.IsWord → upper.IsWord →
      enumeration.checkedRange? lower upper = some (enumeration.range lower upper)) := by
  refine ⟨fun below => ⟨fun range => range_eq_ok_iff_admits below, ?_,
    fun refusal => range_eq_error_iff_refuses below⟩, checkedRange?_eq⟩
  intro range first last accepted begins ends
  obtain ⟨start, final, starts, stops, admits, rfl⟩ := (range_eq_ok_iff_admits below).mp accepted
  obtain rfl : start = first := Option.some.inj (starts.symm.trans begins)
  obtain rfl : final = last := Option.some.inj (stops.symm.trans ends)
  refine ⟨fun value => mem_range_iff, ?_, width_eq_ncard admits.ordered⟩
  intro value above within
  exact admits.mem_representation above within

/-- Bounds at both ends of 128 bits: a range from the least value of all, one with too many values,
and the enumerator with nothing past it. -/
theorem resolution_exact_extremes :
    let least := Representation.i128.least
    let greatest := Representation.i128.greatest
    let enumeration : Enumeration := ⟨"E", .i128, [], none, none, ⟨none, none, none, some 3⟩, 1024⟩
    enumeration.range (.enumerator least) (.underlying (least + 3)) = .ok ⟨least, least + 3⟩ ∧
      enumeration.range (.underlying least) (.underlying greatest) =
        .error (.tooWide (greatest - least).toNat 3) ∧
      enumeration.checkedRange? (.underlying least) (.enumerator greatest) =
        some (.error (.unrepresentable greatest)) := by
  intro least greatest enumeration
  have narrow := (resolution_exact enumeration (.enumerator least) (.underlying (least + 3))).1
    nofun
  have wide := (resolution_exact enumeration (.underlying least) (.underlying greatest)).1 nofun
  have words := (resolution_exact enumeration (.underlying least) (.enumerator greatest)).2
  have admits : enumeration.Admits least (least + 2) :=
    ⟨by decide, by decide, by decide, by decide⟩
  have refuses : enumeration.Refuses (.underlying least) (.underlying greatest)
      (.tooWide (greatest - 1 - least + 1).toNat 3) :=
    .tooWide rfl rfl (by decide) (by decide) (by decide) (by decide)
  have count : greatest - 1 - least + 1 = greatest - least := by omega
  have least_word : least ∈ Representation.i128 := by decide
  have greatest_word : greatest ∈ Representation.i128 := by decide
  refine ⟨(narrow.1 _).mpr ⟨least, least + 2, rfl, rfl, admits, rfl⟩, ?_, ?_⟩
  · rw [← count]
    exact (wide.2.2 _).mpr refuses
  · rw [words least_word greatest_word]
    rfl

end Enumeration

end EnumNames
