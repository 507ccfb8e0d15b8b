import EnumNames.Proofs.Probe
import EnumNames.Table
/-!
# The two passes over a range

Both passes probe the values of a range from its start upward. As long as the probes answer, one
pass counts the names and the other lays them down in the room there is. A probe that aborts ends
either pass, and a name without room ends the second one before a later probe can abort. So how
the passes end is a matter of the names in front of the first abort, and the passes agree.
-/
namespace EnumNames

namespace Range

variable {start stop : Int}

/-- A range that ends where it starts or before has no size. -/
theorem size_of_le (ended : stop ≤ start) : size ⟨start, stop⟩ = 0 := by
  simp only [size]
  omega

/-- A range that ends where it starts or before has no values. -/
theorem values_of_le (ended : stop ≤ start) : values ⟨start, stop⟩ = [] := by
  rw [values, size_of_le ended]
  rfl

/-- Nothing is in a range that ends where it starts or before. -/
theorem not_mem_of_le {value : Int} (ended : stop ≤ start) : value ∉ (⟨start, stop⟩ : Range) := by
  intro inside
  have first : start ≤ value := inside.1
  have last : value < stop := inside.2
  omega

/-- A value is in a range as its start, or further on. -/
theorem mem_iff_of_lt {value : Int} (below : start < stop) :
    value ∈ (⟨start, stop⟩ : Range) ↔ value = start ∨ value ∈ (⟨start + 1, stop⟩ : Range) := by
  simp only [mem_iff]
  omega

/-- A range that ends after its start has one value more than from its second value on. -/
theorem size_of_lt (below : start < stop) : size ⟨start, stop⟩ = size ⟨start + 1, stop⟩ + 1 := by
  simp only [size]
  omega

/-- The first value of a range is its start, and the others are those from the next value on. -/
theorem values_of_lt (below : start < stop) :
    values ⟨start, stop⟩ = start :: values ⟨start + 1, stop⟩ := by
  rw [values, values, size_of_lt below, List.range_succ_eq_map, List.map_cons, List.map_map]
  congr 1
  · exact Int.add_zero start
  · refine List.map_congr_left fun offset _ => ?_
    simp only [Function.comp_apply, Nat.succ_eq_add_one]
    omega

/-- What holds of the ranges without values, and of any other range if it holds from the second
value on, holds of all ranges with the same end. -/
theorem induction {motive : Int → Prop} (stop : Int)
    (ended : ∀ start, stop ≤ start → motive start)
    (below : ∀ start, start < stop → motive (start + 1) → motive start) (start : Int) :
    motive start := by
  induction probes : size ⟨start, stop⟩ generalizing start with
  | zero =>
    refine ended start ?_
    simp only [size] at probes
    omega
  | succ later ih =>
    have before : start < stop := by
      simp only [size] at probes
      omega
    rw [size_of_lt before] at probes
    exact below start before (ih (start + 1) (Nat.succ.inj probes))

/-- The values in front of one of a range are probed first, and then the value itself. -/
theorem exists_size_eq {range : Range} {value : Int} (inside : value ∈ range) :
    ∃ later, range.size = size ⟨range.start, value⟩ + (later + 1) := by
  obtain ⟨first, last⟩ := mem_iff.mp inside
  refine ⟨(range.stop - value - 1).toNat, ?_⟩
  simp only [size]
  omega

end Range

namespace Enumeration

open Signature

variable {probe : Int → Except Abort (Option String)} {noRoom : Refusal} {range : Range}
  {start stop : Int}

/-- Every probe in a range answers, with a name or with none. -/
def Answered (probe : Int → Except Abort (Option String)) (range : Range) : Prop :=
  ∀ value ∈ range, ∃ answer, probe value = .ok answer

/-- The names that the probes in a range give, in the order of the values. -/
def namesIn (probe : Int → Except Abort (Option String)) (range : Range) : List String :=
  range.values.filterMap fun value => (probe value).toOption.join

/-- The probe at a value of a range aborts, and every probe in front of it answers. -/
structure FirstAbort (probe : Int → Except Abort (Option String)) (range : Range) (value : Int)
    (cause : Abort) : Prop where
  /-- The value is in the range. -/
  inside : value ∈ range
  /-- The probe at the value aborts. -/
  aborts : probe value = .error cause
  /-- The probes at smaller values answer. -/
  earlier : Answered probe ⟨range.start, value⟩

/-- The probes in a range answer if the one at the start does, and those further on. -/
theorem answered_iff_of_lt (below : start < stop) :
    Answered probe ⟨start, stop⟩ ↔
      (∃ answer, probe start = .ok answer) ∧ Answered probe ⟨start + 1, stop⟩ := by
  simp only [Answered, Range.mem_iff_of_lt below, forall_eq_or_imp]

/-- The probes in a range without values answer. -/
theorem answered_of_le (ended : stop ≤ start) : Answered probe ⟨start, stop⟩ :=
  fun _ inside => absurd inside (Range.not_mem_of_le ended)

/-- There are no names in a range without values. -/
theorem namesIn_of_le (ended : stop ≤ start) : namesIn probe ⟨start, stop⟩ = [] := by
  rw [namesIn, Range.values_of_le ended]
  rfl

/-- A start without a name is passed over. -/
theorem namesIn_of_none (below : start < stop) (answers : probe start = .ok none) :
    namesIn probe ⟨start, stop⟩ = namesIn probe ⟨start + 1, stop⟩ := by
  rw [namesIn, Range.values_of_lt below]
  exact List.filterMap_cons_none (by rw [answers]; rfl)

/-- The name of the start comes first. -/
theorem namesIn_of_some {name : String} (below : start < stop)
    (answers : probe start = .ok (some name)) :
    namesIn probe ⟨start, stop⟩ = name :: namesIn probe ⟨start + 1, stop⟩ := by
  rw [namesIn, Range.values_of_lt below]
  exact List.filterMap_cons_some (by rw [answers]; rfl)

section Steps

variable {room probes : Nat} {value : Int} {name : String} {cause : Abort}

/-- A value without a name adds nothing to the count. -/
theorem tally_of_none (answers : probe value = .ok none) :
    tally probe (probes + 1) value = tally probe probes (value + 1) := by
  rw [tally, answers]

/-- A name counts once. -/
theorem tally_of_some (answers : probe value = .ok (some name)) :
    tally probe (probes + 1) value = (tally probe probes (value + 1)).map (· + 1) := by
  rw [tally, answers]

/-- A probe that aborts ends the counting pass. -/
theorem tally_of_error (aborts : probe value = .error cause) :
    tally probe (probes + 1) value = .error cause := by
  rw [tally, aborts]

/-- A value without a name takes no room. -/
theorem fill_of_none (answers : probe value = .ok none) :
    fill probe noRoom room (probes + 1) value = fill probe noRoom room probes (value + 1) := by
  rw [fill.eq_def]
  simp only [answers]

/-- A name takes one place. -/
theorem fill_of_some (answers : probe value = .ok (some name)) :
    fill probe noRoom (room + 1) (probes + 1) value =
      (fill probe noRoom room probes (value + 1)).map (name :: ·) := by
  rw [fill.eq_def]
  simp only [answers]

/-- A name without room is refused. -/
theorem fill_of_full (answers : probe value = .ok (some name)) :
    fill probe noRoom 0 (probes + 1) value = .error (.refusal noRoom) := by
  rw [fill.eq_def]
  simp only [answers]

/-- A probe that aborts ends the filling pass, with or without room. -/
theorem fill_of_error (aborts : probe value = .error cause) :
    fill probe noRoom room (probes + 1) value = .error (.abort cause) := by
  rw [fill.eq_def]
  simp only [aborts]

end Steps

/-- While the probes answer, the counting pass adds their names to what the probes after them
give. -/
theorem tally_of_answered (ordered : start ≤ stop) (answered : Answered probe ⟨start, stop⟩)
    (later : Nat) :
    tally probe (Range.size ⟨start, stop⟩ + later) start =
      (tally probe later stop).map (· + (namesIn probe ⟨start, stop⟩).length) := by
  induction start using Range.induction stop with
  | ended start ended =>
    have same : start = stop := Int.le_antisymm ordered ended
    rw [same, namesIn_of_le (Int.le_refl stop), Range.size_of_le (Int.le_refl stop), Nat.zero_add]
    cases tally probe later stop <;> rfl
  | below start below ih =>
    obtain ⟨⟨answer, answers⟩, answered⟩ := (answered_iff_of_lt below).mp answered
    have tail := ih (Int.add_one_le_of_lt below) answered
    rw [Range.size_of_lt below, Nat.succ_add]
    cases answer with
    | none => rw [tally_of_none answers, namesIn_of_none below answers, tail]
    | some name =>
      rw [tally_of_some answers, namesIn_of_some below answers, tail]
      cases tally probe later stop <;> rfl

/-- While the probes answer, the filling pass lays down their names in front of what the probes
after them give in the room that is left. If there is too little room, it refuses the names. -/
theorem fill_of_answered (ordered : start ≤ stop) (answered : Answered probe ⟨start, stop⟩)
    (room later : Nat) :
    fill probe noRoom room (Range.size ⟨start, stop⟩ + later) start =
      if room < (namesIn probe ⟨start, stop⟩).length then .error (.refusal noRoom)
      else (fill probe noRoom (room - (namesIn probe ⟨start, stop⟩).length) later stop).map
        (namesIn probe ⟨start, stop⟩ ++ ·) := by
  induction start using Range.induction stop generalizing room with
  | ended start ended =>
    have same : start = stop := Int.le_antisymm ordered ended
    rw [same, namesIn_of_le (Int.le_refl stop), Range.size_of_le (Int.le_refl stop), Nat.zero_add,
      List.length_nil, if_neg (Nat.not_lt_zero room)]
    cases fill probe noRoom room later stop <;> rfl
  | below start below ih =>
    obtain ⟨⟨answer, answers⟩, answered⟩ := (answered_iff_of_lt below).mp answered
    have tail := ih (Int.add_one_le_of_lt below) answered
    rw [Range.size_of_lt below, Nat.succ_add]
    cases answer with
    | none => rw [fill_of_none answers, namesIn_of_none below answers, tail]
    | some name =>
      rw [namesIn_of_some below answers, List.length_cons]
      cases room with
      | zero => rw [fill_of_full answers, if_pos (Nat.succ_pos _)]
      | succ room =>
        rw [fill_of_some answers, tail, Nat.add_sub_add_right]
        by_cases short : room < (namesIn probe ⟨start + 1, stop⟩).length
        · rw [if_pos short, if_pos (Nat.succ_lt_succ short)]
          rfl
        · rw [if_neg short, if_neg (by omega)]
          cases fill probe noRoom (room - (namesIn probe ⟨start + 1, stop⟩).length) later stop <;>
            rfl

/-- Where every probe of a range answers, the counting pass gives the number of the names. -/
theorem Answered.tally_eq (answered : Answered probe range) :
    tally probe range.size range.start = .ok (namesIn probe range).length := by
  obtain ⟨start, stop⟩ := range
  by_cases ordered : start ≤ stop
  · rw [← Nat.add_zero (Range.size ⟨start, stop⟩), tally_of_answered ordered answered]
    exact congrArg Except.ok (Nat.zero_add _)
  · have ended : stop ≤ start := by omega
    rw [namesIn_of_le ended, Range.size_of_le ended]
    rfl

/-- Where every probe of a range answers, the filling pass gives the names if there is room for
them. -/
theorem Answered.fill_eq (answered : Answered probe range) (room : Nat) :
    fill probe noRoom room range.size range.start =
      if room < (namesIn probe range).length then .error (.refusal noRoom)
      else .ok (namesIn probe range) := by
  obtain ⟨start, stop⟩ := range
  by_cases ordered : start ≤ stop
  · rw [← Nat.add_zero (Range.size ⟨start, stop⟩), fill_of_answered ordered answered]
    simp [fill, Except.map]
  · have ended : stop ≤ start := by omega
    rw [namesIn_of_le ended, Range.size_of_le ended]
    rfl

variable {value : Int} {cause : Abort}

/-- The counting pass ends with the first abort. -/
theorem FirstAbort.tally_eq (first : FirstAbort probe range value cause) :
    tally probe range.size range.start = .error cause := by
  obtain ⟨later, split⟩ := Range.exists_size_eq first.inside
  rw [split, tally_of_answered first.inside.1 first.earlier, tally_of_error first.aborts]
  rfl

/-- The filling pass ends with the first abort, or with a name without room in front of it. -/
theorem FirstAbort.fill_eq (first : FirstAbort probe range value cause) (room : Nat) :
    fill probe noRoom room range.size range.start =
      if room < (namesIn probe ⟨range.start, value⟩).length then .error (.refusal noRoom)
      else .error (.abort cause) := by
  obtain ⟨later, split⟩ := Range.exists_size_eq first.inside
  rw [split, fill_of_answered first.inside.1 first.earlier, fill_of_error first.aborts]
  rfl

/-- If the probe at the start answers, the first abort after it is the first abort. -/
theorem FirstAbort.of_tail {answer : Option String} (answers : probe start = .ok answer)
    (first : FirstAbort probe ⟨start + 1, stop⟩ value cause) :
    FirstAbort probe ⟨start, stop⟩ value cause := by
  have after : start < value := Int.lt_of_add_one_le first.inside.1
  have below : start < stop := Int.lt_trans after first.inside.2
  refine ⟨(Range.mem_iff_of_lt below).mpr (.inr first.inside), first.aborts, ?_⟩
  exact (answered_iff_of_lt after).mpr ⟨⟨answer, answers⟩, first.earlier⟩

/-- Either all probes of a range answer, or one of them is the first to abort. -/
theorem answered_or_firstAbort (probe : Int → Except Abort (Option String)) (range : Range) :
    Answered probe range ∨ ∃ value cause, FirstAbort probe range value cause := by
  obtain ⟨start, stop⟩ := range
  induction start using Range.induction stop with
  | ended start ended => exact .inl (answered_of_le ended)
  | below start below ih =>
    cases answers : probe start with
    | error cause =>
      have inside : start ∈ (⟨start, stop⟩ : Range) := ⟨Int.le_refl start, below⟩
      exact .inr ⟨start, cause, inside, answers, answered_of_le (Int.le_refl start)⟩
    | ok answer =>
      rcases ih with answered | ⟨value, cause, first⟩
      · exact .inl ((answered_iff_of_lt below).mpr ⟨⟨answer, answers⟩, answered⟩)
      · exact .inr ⟨value, cause, first.of_tail answers⟩

/-- Where one probe of a range aborts, not all of them answer. -/
theorem FirstAbort.not_answered (first : FirstAbort probe range value cause) :
    ¬Answered probe range := by
  intro answered
  obtain ⟨answer, answers⟩ := answered value first.inside
  cases first.aborts.symm.trans answers

/-- No probe that aborts comes in front of the first abort. -/
theorem FirstAbort.le {other : Int} {otherCause : Abort}
    (first : FirstAbort probe range value cause)
    (second : FirstAbort probe range other otherCause) : value ≤ other := by
  by_contra later
  have before : other ∈ (⟨range.start, value⟩ : Range) := ⟨second.inside.1, Int.not_le.mp later⟩
  obtain ⟨answer, answers⟩ := first.earlier other before
  cases second.aborts.symm.trans answers

/-- There is one first abort at most. -/
theorem FirstAbort.unique {other : Int} {otherCause : Abort}
    (first : FirstAbort probe range value cause)
    (second : FirstAbort probe range other otherCause) : value = other ∧ cause = otherCause := by
  have same : value = other := Int.le_antisymm (first.le second) (second.le first)
  subst same
  exact ⟨rfl, Except.error.inj (first.aborts.symm.trans second.aborts)⟩

variable {enumeration : Enumeration} {style : Style} {length : Nat}

/-- A table is what a filling pass gives, if that is as long as the table. -/
theorem table_eq : enumeration.table style .sequential range length =
    match fill (enumeration.nameAt style) (.wrongLength length (length + 1)) length range.size
      range.start with
    | .error failure => .error failure
    | .ok names =>
      if names.length = length then .ok names
      else .error (.refusal (.wrongLength length names.length)) := by
  rw [table]
  cases fill (enumeration.nameAt style) (.wrongLength length (length + 1)) length range.size
    range.start with
  | error failure => rfl
  | ok names =>
    by_cases same : names.length = length
    · simp [bind, Except.bind, same, pure, Except.pure]
    · simp [bind, Except.bind, same, throw, throwThe, MonadExceptOf.throw]

/-- Where every probe of a range answers, the names are counted. -/
theorem Answered.count_eq (answered : Answered (enumeration.nameAt style) range) :
    enumeration.count style .sequential range =
      .ok (namesIn (enumeration.nameAt style) range).length := by
  rw [count, answered.tally_eq]
  rfl

/-- Where every probe of a range answers, the names are the table if they are as many as it is
long. -/
theorem Answered.table_eq (answered : Answered (enumeration.nameAt style) range) :
    enumeration.table style .sequential range length =
      if length < (namesIn (enumeration.nameAt style) range).length then
        .error (.refusal (.wrongLength length (length + 1)))
      else if (namesIn (enumeration.nameAt style) range).length < length then
        .error (.refusal (.wrongLength length (namesIn (enumeration.nameAt style) range).length))
      else .ok (namesIn (enumeration.nameAt style) range) := by
  rw [Enumeration.table_eq, answered.fill_eq]
  by_cases more : length < (namesIn (enumeration.nameAt style) range).length
  · simp only [if_pos more]
  · simp only [if_neg more]
    by_cases fewer : (namesIn (enumeration.nameAt style) range).length < length
    · rw [if_neg (Nat.ne_of_lt fewer), if_pos fewer]
    · rw [if_pos (by omega), if_neg fewer]

/-- The count ends with the first abort. -/
theorem FirstAbort.count_eq (first : FirstAbort (enumeration.nameAt style) range value cause) :
    enumeration.count style .sequential range = .error (.abort cause) := by
  rw [count, first.tally_eq]
  rfl

/-- The table ends with the first abort, unless there are more names in front of it than the table
is long. -/
theorem FirstAbort.table_eq (first : FirstAbort (enumeration.nameAt style) range value cause) :
    enumeration.table style .sequential range length =
      if length < (namesIn (enumeration.nameAt style) ⟨range.start, value⟩).length then
        .error (.refusal (.wrongLength length (length + 1)))
      else .error (.abort cause) := by
  rw [Enumeration.table_eq, first.fill_eq]
  by_cases more : length < (namesIn (enumeration.nameAt style) ⟨range.start, value⟩).length
  · simp only [if_pos more]
  · simp only [if_neg more]

/-- How the two passes over a range end, and that they agree. Where every probe answers, the names
are counted, and a table gets them if it is as long; where one aborts, the first to do so ends
both passes, unless a table has no room for the names in front of it. So a table as long as the
count is never refused. -/
theorem passes_agree (enumeration : Enumeration) (style : Style) (range : Range) :
    (∀ value, enumeration.nameAt style value ≠ .ok (some "")) ∧
    (Answered (enumeration.nameAt style) range ∨
      ∃ value cause, FirstAbort (enumeration.nameAt style) range value cause) ∧
    (Answered (enumeration.nameAt style) range →
      enumeration.count style .sequential range =
        .ok (namesIn (enumeration.nameAt style) range).length ∧
      ∀ length, enumeration.table style .sequential range length =
        if length < (namesIn (enumeration.nameAt style) range).length then
          .error (.refusal (.wrongLength length (length + 1)))
        else if (namesIn (enumeration.nameAt style) range).length < length then
          .error (.refusal (.wrongLength length (namesIn (enumeration.nameAt style) range).length))
        else .ok (namesIn (enumeration.nameAt style) range)) ∧
    (∀ value cause, FirstAbort (enumeration.nameAt style) range value cause →
      enumeration.count style .sequential range = .error (.abort cause) ∧
      ∀ length, enumeration.table style .sequential range length =
        if length < (namesIn (enumeration.nameAt style) ⟨range.start, value⟩).length then
          .error (.refusal (.wrongLength length (length + 1)))
        else .error (.abort cause)) ∧
    ∀ length, enumeration.count style .sequential range = .ok length →
      enumeration.table style .sequential range length =
        .ok (namesIn (enumeration.nameAt style) range) := by
  refine ⟨nameAt_ne_empty, answered_or_firstAbort _ _, ?_, ?_, ?_⟩
  · intro answered
    exact ⟨answered.count_eq, fun _ => answered.table_eq⟩
  · intro value cause first
    exact ⟨first.count_eq, fun _ => first.table_eq⟩
  · intro length counted
    rcases answered_or_firstAbort (enumeration.nameAt style) range with answered | ⟨_, _, first⟩
    · rw [answered.count_eq] at counted
      rw [answered.table_eq, ← Except.ok.inj counted, if_neg (Nat.lt_irrefl _),
        if_neg (Nat.lt_irrefl _)]
    · rw [first.count_eq] at counted
      cases counted

/-- A name in front of a malformed signature: the count aborts, and so does a table with room for
the name. A table without room refuses the name first. -/
theorem passes_agree_malformed :
    let enumeration : Enumeration :=
      ⟨"E", .i8, [⟨1, "malformed"⟩, ⟨0, "[E::A]"⟩], none, none, {}, 1024⟩
    enumeration.count .qualified .sequential ⟨0, 3⟩ =
        .error (.abort (.refused .unrecognizedSignature)) ∧
      enumeration.table .qualified .sequential ⟨0, 3⟩ 1 =
        .error (.abort (.refused .unrecognizedSignature)) ∧
      enumeration.table .qualified .sequential ⟨0, 3⟩ 0 =
        .error (.refusal (.wrongLength 0 1)) := by
  intro enumeration
  have first : FirstAbort (enumeration.nameAt .qualified) ⟨0, 3⟩ 1
      (.refused .unrecognizedSignature) := by
    refine ⟨by decide, by decide, fun value inside => ⟨some "A", ?_⟩⟩
    obtain ⟨low, high⟩ := Range.mem_iff.mp inside
    have same : value = 0 := Int.le_antisymm (Int.le_of_lt_add_one high) low
    rw [same]
    decide
  obtain ⟨-, -, -, aborting, -⟩ := passes_agree enumeration .qualified ⟨0, 3⟩
  obtain ⟨counted, filled⟩ := aborting 1 _ first
  have names : namesIn (enumeration.nameAt .qualified) ⟨0, 1⟩ = ["A"] := by decide
  refine ⟨counted, ?_, ?_⟩
  · rw [filled 1, names]
    rfl
  · rw [filled 0, names]
    rfl

end Enumeration

end EnumNames
