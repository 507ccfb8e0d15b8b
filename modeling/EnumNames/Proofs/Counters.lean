import EnumNames.Counters
import EnumNames.Proofs.Census
/-!
# The counters of the passes stay in range

A name is counted only at a declared value, and every value is probed once. So at any value the
counter of names is at most the number of declared values below it, and the list of enumerators has
a length. The values themselves stop at the end of the range. That holds however wide the range is,
and makes the passes with counters the passes without.
-/
namespace EnumNames

namespace Range

variable {start stop : Int}

/-- A range that ends one value later has that value as its last one. -/
theorem values_add_one (ordered : start ≤ stop) :
    values ⟨start, stop + 1⟩ = values ⟨start, stop⟩ ++ [stop] := by
  have longer : size ⟨start, stop + 1⟩ = size ⟨start, stop⟩ + 1 := by
    simp only [size]
    omega
  have last : start + (size ⟨start, stop⟩ : Int) = stop := by
    simp only [size]
    omega
  rw [values, values, longer, List.range_succ, List.map_append, List.map_singleton, last]

/-- A value is in a range that ends one value later as before, or as its last one. -/
theorem mem_add_one_iff {value : Int} (ordered : start ≤ stop) :
    value ∈ (⟨start, stop + 1⟩ : Range) ↔ value ∈ (⟨start, stop⟩ : Range) ∨ value = stop := by
  simp only [mem_iff]
  omega

end Range

namespace Counters

open Signature Enumeration

section Loop

variable {σ : Type} {work : Int → σ → Except Halt σ} {start stop value next : Int}
  {first state after : σ} {halt : Halt}

/-- A loop does not go below its start. -/
theorem Reached.start_le (reached : Reached work start stop first value state) :
    start ≤ value := by
  induction reached with
  | start => exact Int.le_refl start
  | next _ _ _ advances hypothesis =>
    rw [eq_of_nextValue advances]
    omega

/-- A loop does not go beyond its end. -/
theorem Reached.le_max (reached : Reached work start stop first value state) :
    value ≤ max start stop := by
  induction reached with
  | start => exact Int.le_max_left start stop
  | next _ below _ advances _ =>
    rw [eq_of_nextValue advances]
    omega

/-- There is a next value in front of an end that has a representation. -/
theorem nextValue_of_lt (least : start ∈ Representation.i128)
    (greatest : stop ∈ Representation.i128) (ordered : start ≤ value) (below : value < stop) :
    nextValue value = .ok (value + 1) := by
  refine if_pos (Representation.mem_iff.mpr ⟨?_, ?_⟩)
  · have := (Representation.mem_iff.mp least).1
    omega
  · have := (Representation.mem_iff.mp greatest).2
    omega

/-- Before its end a loop does what is done at the value, and goes on at the next one. -/
theorem run_of_lt (below : value < stop) (works : work value state = .ok after)
    (advances : nextValue value = .ok next) :
    run work stop value state = run work stop next after := by
  rw [run, if_pos below, works]
  simp only
  split
  · next failed =>
    rw [advances] at failed
    contradiction
  · next succeeded =>
    rw [advances] at succeeded
    rw [Except.ok.inj succeeded]

/-- A loop ends with its work. -/
theorem run_of_error (below : value < stop) (works : work value state = .error halt) :
    run work stop value state = .error halt := by
  rw [run, if_pos below, works]

/-- At its end a loop has its last state. -/
theorem run_of_le (ended : stop ≤ value) : run work stop value state = .ok state := by
  rw [run, if_neg (Int.not_lt.mpr ended)]

/-- A loop between values of the representation comes to its end, or to a value at which its work
cannot be done. -/
theorem exists_run_eq (work : Int → σ → Except Halt σ) (first : σ)
    (least : start ∈ Representation.i128) (greatest : stop ∈ Representation.i128) :
    (∃ value state, Reached work start stop first value state ∧ stop ≤ value ∧
      run work stop start first = .ok state) ∨
    ∃ value state halt, Reached work start stop first value state ∧ value < stop ∧
      work value state = .error halt ∧ run work stop start first = .error halt := by
  -- The induction is on what is left of the range, from any value that the loop comes to.
  suffices rest : ∀ value state, Reached work start stop first value state →
      (∃ value' state', Reached work start stop first value' state' ∧ stop ≤ value' ∧
        run work stop value state = .ok state') ∨
      ∃ value' state' halt, Reached work start stop first value' state' ∧ value' < stop ∧
        work value' state' = .error halt ∧ run work stop value state = .error halt from
    rest start first .start
  intro value
  induction value using Range.induction stop with
  | ended value ended =>
    intro state reached
    exact .inl ⟨value, state, reached, ended, run_of_le ended⟩
  | below value below hypothesis =>
    intro state reached
    cases works : work value state with
    | error halt =>
      exact .inr ⟨value, state, halt, reached, below, works, run_of_error below works⟩
    | ok after =>
      have advances := nextValue_of_lt least greatest reached.start_le below
      rw [run_of_lt below works advances]
      exact hypothesis after (reached.next below works advances)

end Loop

/-! ## What a counter of names counts -/

section Progress

variable {probe : Int → Except Abort (Option String)} {start stop value : Int} {number : Nat}
  {name : String}

/-- From a start up to a value all probes answer, and they give so many names. -/
structure Progress (probe : Int → Except Abort (Option String)) (start value : Int)
    (number : Nat) : Prop where
  /-- The value does not come before the start. -/
  ordered : start ≤ value
  /-- The probes answer. -/
  answered : Answered probe ⟨start, value⟩
  /-- The number is that of the names. -/
  counted : number = (namesIn probe ⟨start, value⟩).length

/-- At the start there are no names. -/
theorem Progress.refl (probe : Int → Except Abort (Option String)) (start : Int) :
    Progress probe start start 0 := by
  have ended := Int.le_refl start
  exact ⟨ended, answered_of_le ended, by rw [namesIn_of_le ended]; rfl⟩

/-- The probes still answer when one more does. -/
theorem answered_add_one {answer : Option String} (ordered : start ≤ value)
    (answered : Answered probe ⟨start, value⟩) (answers : probe value = .ok answer) :
    Answered probe ⟨start, value + 1⟩ := by
  intro other inside
  rcases (Range.mem_add_one_iff ordered).mp inside with earlier | rfl
  · exact answered other earlier
  · exact ⟨answer, answers⟩

/-- The name of a value, if it has one, comes behind those of the values below it. -/
theorem namesIn_add_one {answer : Option String} (ordered : start ≤ value)
    (answers : probe value = .ok answer) :
    namesIn probe ⟨start, value + 1⟩ = namesIn probe ⟨start, value⟩ ++ answer.toList := by
  rw [namesIn, Range.values_add_one ordered, List.filterMap_append, namesIn]
  congr 1
  rw [List.filterMap_cons, answers]
  cases answer <;> rfl

/-- One more probe that answers adds its name to the number, if it gives one. -/
theorem Progress.next {answer : Option String} (progress : Progress probe start value number)
    (answers : probe value = .ok answer) :
    Progress probe start (value + 1) (number + answer.toList.length) := by
  have ordered := progress.ordered
  refine ⟨by omega, answered_add_one ordered progress.answered answers, ?_⟩
  rw [namesIn_add_one ordered answers, List.length_append, progress.counted]

/-- The first probe that does not answer is the first to abort. -/
theorem Progress.firstAbort {cause : Abort} (progress : Progress probe start value number)
    (below : value < stop) (aborts : probe value = .error cause) :
    FirstAbort probe ⟨start, stop⟩ value cause :=
  ⟨⟨progress.ordered, below⟩, aborts, progress.answered⟩

/-- At the end of a range all its probes answered, and all its names are counted. -/
theorem Progress.of_le (progress : Progress probe start value number) (ended : stop ≤ value)
    (within : value ≤ max start stop) :
    Answered probe ⟨start, stop⟩ ∧ namesIn probe ⟨start, stop⟩ = namesIn probe ⟨start, value⟩ := by
  have ordered := progress.ordered
  by_cases forward : start ≤ stop
  · obtain rfl : value = stop := by omega
    exact ⟨progress.answered, rfl⟩
  · have backwards : stop ≤ start := by omega
    obtain rfl : value = start := by omega
    rw [namesIn_of_le (Int.le_refl _), namesIn_of_le backwards]
    exact ⟨answered_of_le backwards, rfl⟩

end Progress

/-! ## How many names there can be -/

variable {enumeration : Enumeration} {style : Style} {start stop value : Int} {number : Nat}
  {name : String}

/-- The values below a value that enumerators have, each of them once. -/
def valuesBelow (enumeration : Enumeration) (value : Int) : List Int :=
  (enumeration.enumerators.map (·.value)).dedup.filter (· < value)

/-- There are no more values below a value than enumerators. -/
theorem length_valuesBelow_le (enumeration : Enumeration) (value : Int) :
    (valuesBelow enumeration value).length ≤ enumeration.enumerators.length := by
  have distinct := (List.dedup_sublist (enumeration.enumerators.map (·.value))).length_le
  rw [List.length_map] at distinct
  exact Nat.le_trans (List.length_filter_le _ _) distinct

/-- The names up to a value are no more than the values of enumerators below it. -/
theorem Progress.le_valuesBelow
    (progress : Progress (enumeration.nameAt style) start value number) :
    number ≤ (valuesBelow enumeration value).length := by
  have inside : (enumeration.valuesIn ⟨start, value⟩).length ≤
      (valuesBelow enumeration value).length := by
    rw [valuesIn, valuesBelow, ← List.countP_eq_length_filter, ← List.countP_eq_length_filter]
    refine List.countP_mono_left fun other _ member => ?_
    exact decide_eq_true (Range.mem_iff.mp (of_decide_eq_true member)).2
  rw [progress.counted]
  exact Nat.le_trans length_namesIn_le_valuesIn inside

/-- Where one more name is given, the number has a next one. -/
theorem Progress.nextNumber_eq (few : enumeration.enumerators.length < UInt64.size)
    (progress : Progress (enumeration.nameAt style) start value number)
    (answers : enumeration.nameAt style value = .ok (some name)) :
    nextNumber number = .ok (number + 1) := by
  have more : number + 1 ≤ (valuesBelow enumeration (value + 1)).length :=
    (progress.next answers).le_valuesBelow
  have enough := Nat.le_trans more (length_valuesBelow_le enumeration (value + 1))
  exact if_pos (Nat.lt_of_le_of_lt enough few)

/-! ## The counting pass -/

section Counting

variable {probe : Int → Except Abort (Option String)} {count after : Nat} {halt : Halt}

/-- The work of the counting pass is done where the probe answers, and it counts the name. -/
theorem countAt_eq_ok (works : countAt probe value count = .ok after) :
    ∃ answer, probe value = .ok answer ∧ after = count + answer.toList.length := by
  rw [countAt] at works
  cases answers : probe value with
  | error cause =>
    rw [answers] at works
    contradiction
  | ok answer =>
    rw [answers] at works
    cases answer with
    | none => exact ⟨none, rfl, (Except.ok.inj works).symm⟩
    | some name => exact ⟨some name, rfl, eq_of_nextNumber works⟩

/-- The work of the counting pass fails where the probe aborts, or where the counter has no next
number. -/
theorem countAt_eq_error (fails : countAt probe value count = .error halt) :
    (∃ cause, probe value = .error cause ∧ halt = .failure (.abort cause)) ∨
      ∃ name, probe value = .ok (some name) ∧ nextNumber count = .error halt := by
  rw [countAt] at fails
  cases answers : probe value with
  | error cause =>
    rw [answers] at fails
    exact .inl ⟨cause, rfl, (Except.error.inj fails).symm⟩
  | ok answer =>
    rw [answers] at fails
    cases answer with
    | none => contradiction
    | some name => exact .inr ⟨name, rfl, fails⟩

/-- The counter of the counting pass has the number of the names so far. -/
theorem progress_of_reached_countAt (reached : Reached (countAt probe) start stop 0 value count) :
    Progress probe start value count := by
  induction reached with
  | start => exact Progress.refl probe start
  | next _ _ works advances progress =>
    obtain ⟨answer, answers, rfl⟩ := countAt_eq_ok works
    rw [eq_of_nextValue advances]
    exact progress.next answers

/-- The work of the counting pass only ever fails with an abort of a probe. -/
theorem exists_abort_of_countAt (few : enumeration.enumerators.length < UInt64.size)
    (progress : Progress (enumeration.nameAt style) start value count)
    (fails : countAt (enumeration.nameAt style) value count = .error halt) :
    ∃ cause, enumeration.nameAt style value = .error cause ∧ halt = .failure (.abort cause) := by
  rcases countAt_eq_error fails with abort | ⟨name, answers, overflow⟩
  · exact abort
  · rw [progress.nextNumber_eq few answers] at overflow
    contradiction

/-- With a counter the pass over a range counts its names. -/
theorem count_eq {range : Range} (few : enumeration.enumerators.length < UInt64.size)
    (least : range.start ∈ Representation.i128) (greatest : range.stop ∈ Representation.i128)
    (searcher : Searcher) :
    Counters.count enumeration style searcher range =
      (enumeration.count style searcher range).mapError .failure := by
  cases searcher with
  | bitflag => rfl
  | sequential =>
    rw [Counters.count]
    rcases exists_run_eq (countAt (enumeration.nameAt style)) 0 least greatest with
      ⟨value, count, reached, ended, runs⟩ | ⟨value, count, halt, reached, below, fails, runs⟩
    · have progress := progress_of_reached_countAt reached
      obtain ⟨answered, names⟩ := progress.of_le ended reached.le_max
      rw [runs, Answered.count_eq answered, names, ← progress.counted]
      rfl
    · have progress := progress_of_reached_countAt reached
      obtain ⟨cause, aborts, rfl⟩ := exists_abort_of_countAt few progress fails
      rw [runs, (progress.firstAbort below aborts).count_eq]
      rfl

end Counting

/-! ## The filling pass -/

section Filling

variable {probe : Int → Except Abort (Option String)} {length : Nat}
  {table after : Filling length} {halt : Halt}

/-- The slots with names are the first ones, and they have the names so far. -/
structure Filled (probe : Int → Except Abort (Option String)) (start value : Int)
    (table : Filling length) : Prop where
  /-- There are as many slots with names as names so far. -/
  progress : Progress probe start value table.filled
  /-- The first slots have the names so far. -/
  names : table.slots.toList.take table.filled = namesIn probe ⟨start, value⟩

/-- There are no more slots with names than slots. -/
theorem Filled.le (filled : Filled probe start value table) : table.filled ≤ length := by
  have lengths := congrArg List.length filled.names
  rw [← filled.progress.counted, List.length_take, Vector.length_toList] at lengths
  omega

/-- A name in the slot behind the first ones comes behind the names in these. -/
theorem take_set_slot (slots : Vector String length) {slot : Nat} (inside : slot < length)
    (name : String) :
    (slots.set slot name).toList.take (slot + 1) = slots.toList.take slot ++ [name] := by
  have within : slot < slots.toList.length := by rwa [Vector.length_toList]
  have width : (slots.toList.take slot ++ [name]).length = slot + 1 := by
    rw [List.length_append, List.length_take_of_le (Nat.le_of_lt within), List.length_singleton]
  rw [Vector.toList_set, List.set_eq_take_append_cons_drop, if_pos within, List.append_cons]
  exact List.take_left' width

/-- A probe that aborts ends the work of the filling pass. -/
theorem fillAt_of_error {cause : Abort} (aborts : probe value = .error cause) :
    fillAt probe value table = .error (.failure (.abort cause)) := by
  rw [fillAt, aborts]

/-- A value without a name leaves the table as it is. -/
theorem fillAt_of_none (answers : probe value = .ok none) :
    fillAt probe value table = .ok table := by
  rw [fillAt, answers]

/-- Where no slot is left, a name ends the work of the filling pass. -/
theorem fillAt_of_full (answers : probe value = .ok (some name)) (full : table.filled = length) :
    fillAt probe value table = .error (noRoom length) := by
  rw [fillAt, answers]
  exact if_pos full

/-- Without a slot a name is refused with the number of the names up to it. -/
theorem noRoom_of_ok {found : Nat} (steps : nextNumber length = .ok found) :
    noRoom length = .failure (.refusal (.wrongLength length found)) := by
  rw [noRoom, steps]

/-- A name is written into the next slot. -/
theorem fillAt_of_lt (answers : probe value = .ok (some name)) (inside : table.filled < length) :
    fillAt probe value table =
      (nextNumber table.filled).map (⟨table.slots.set table.filled name, ·⟩) := by
  rw [fillAt, answers]
  simp only [if_neg (Nat.ne_of_lt inside), dif_pos inside]

/-- The work of the filling pass is done where the probe answers, and it writes the name behind
those so far. -/
theorem Filled.next (filled : Filled probe start value table)
    (works : fillAt probe value table = .ok after) : Filled probe start (value + 1) after := by
  have ordered := filled.progress.ordered
  cases answers : probe value with
  | error cause =>
    rw [fillAt_of_error answers] at works
    cases works
  | ok answer =>
    have progress := filled.progress.next answers
    have names := namesIn_add_one ordered answers
    cases answer with
    | none =>
      rw [fillAt_of_none answers] at works
      obtain rfl := Except.ok.inj works
      refine ⟨progress, ?_⟩
      rw [names, filled.names]
      exact (List.append_nil _).symm
    | some name =>
      by_cases full : table.filled = length
      · rw [fillAt_of_full answers full] at works
        cases works
      · have inside : table.filled < length := Nat.lt_of_le_of_ne filled.le full
        rw [fillAt_of_lt answers inside] at works
        cases steps : nextNumber table.filled with
        | error halt =>
          rw [steps] at works
          cases works
        | ok next =>
          rw [steps] at works
          obtain rfl := Except.ok.inj works
          obtain rfl := eq_of_nextNumber steps
          refine ⟨progress, ?_⟩
          rw [names, ← filled.names]
          exact take_set_slot table.slots inside name

/-- The first slots of the table have the names so far. -/
theorem filled_of_reached_fillAt
    (reached : Reached (fillAt probe) start stop (.empty length) value table) :
    Filled probe start value table := by
  induction reached with
  | start =>
    refine ⟨Progress.refl probe start, ?_⟩
    rw [namesIn_of_le (Int.le_refl start)]
    rfl
  | next _ _ works advances filled =>
    rw [eq_of_nextValue advances]
    exact filled.next works

/-- The work of the filling pass only ever fails with an abort of a probe, or with the refusal of a
name without a slot. -/
theorem exists_failure_of_fillAt (few : enumeration.enumerators.length < UInt64.size)
    (filled : Filled (enumeration.nameAt style) start value table)
    (fails : fillAt (enumeration.nameAt style) value table = .error halt) :
    (∃ cause, enumeration.nameAt style value = .error cause ∧ halt = .failure (.abort cause)) ∨
      ∃ name, enumeration.nameAt style value = .ok (some name) ∧ table.filled = length ∧
        halt = .failure (.refusal (.wrongLength length (length + 1))) := by
  cases answers : enumeration.nameAt style value with
  | error cause =>
    rw [fillAt_of_error answers] at fails
    exact .inl ⟨cause, rfl, (Except.error.inj fails).symm⟩
  | ok answer =>
    cases answer with
    | none =>
      rw [fillAt_of_none answers] at fails
      cases fails
    | some name =>
      have number := filled.progress.nextNumber_eq few answers
      by_cases full : table.filled = length
      · rw [full] at number
        rw [fillAt_of_full answers full, noRoom_of_ok number] at fails
        exact .inr ⟨name, rfl, full, (Except.error.inj fails).symm⟩
      · have inside : table.filled < length := Nat.lt_of_le_of_ne filled.le full
        rw [fillAt_of_lt answers inside, number] at fails
        cases fails

/-- A name behind as many as the table is long makes the table refused. -/
theorem table_of_full (progress : Progress (enumeration.nameAt style) start value length)
    (below : value < stop) (answers : enumeration.nameAt style value = .ok (some name)) :
    enumeration.table style .sequential ⟨start, stop⟩ length =
      .error (.refusal (.wrongLength length (length + 1))) := by
  have inside : value ∈ (⟨start, stop⟩ : Range) := ⟨progress.ordered, below⟩
  have counted := progress.counted
  obtain ⟨later, split⟩ := Range.exists_size_eq inside
  have room : ¬length < (namesIn (enumeration.nameAt style) ⟨start, value⟩).length := by omega
  have full : length - (namesIn (enumeration.nameAt style) ⟨start, value⟩).length = 0 := by omega
  rw [Enumeration.table_eq, split, fill_of_answered progress.ordered progress.answered,
    if_neg room, full, fill_of_full answers]
  rfl

/-- At the end of a range the slots are the table, if all of them have names. -/
theorem Filled.table_of_le (filled : Filled (enumeration.nameAt style) start value table)
    (ended : stop ≤ value) (within : value ≤ max start stop) :
    enumeration.table style .sequential ⟨start, stop⟩ length =
      if table.filled = length then .ok table.slots.toList
      else .error (.refusal (.wrongLength length table.filled)) := by
  have fewer := filled.le
  obtain ⟨answered, names⟩ := filled.progress.of_le ended within
  rw [answered.table_eq, names, ← filled.progress.counted, if_neg (Nat.not_lt.mpr fewer)]
  by_cases full : table.filled = length
  · have all : table.slots.toList.take table.filled = table.slots.toList := by
      apply List.take_of_length_le
      rw [Vector.length_toList, full]
    have enough : ¬table.filled < length := Nat.not_lt.mpr (Nat.le_of_eq full.symm)
    rw [if_pos full, if_neg enough, ← filled.names, all]
  · have short : table.filled < length := Nat.lt_of_le_of_ne fewer full
    rw [if_neg full, if_pos short]

/-- A probe that aborts ends the table, since all names in front of it have slots. -/
theorem Filled.table_of_abort {cause : Abort}
    (filled : Filled (enumeration.nameAt style) start value table) (below : value < stop)
    (aborts : enumeration.nameAt style value = .error cause) :
    enumeration.table style .sequential ⟨start, stop⟩ length = .error (.abort cause) := by
  have fewer := filled.le
  rw [filled.progress.counted] at fewer
  rw [(filled.progress.firstAbort below aborts).table_eq]
  exact if_neg (Nat.not_lt.mpr fewer)

/-- With counters and slots the pass over a range gives the table of its names. -/
theorem table_eq {range : Range} (few : enumeration.enumerators.length < UInt64.size)
    (least : range.start ∈ Representation.i128) (greatest : range.stop ∈ Representation.i128)
    (searcher : Searcher) (length : Nat) :
    Counters.table enumeration style searcher range length =
      (enumeration.table style searcher range length).mapError .failure := by
  cases searcher with
  | bitflag => rfl
  | sequential =>
    rw [Counters.table]
    rcases exists_run_eq (fillAt (enumeration.nameAt style)) (.empty length) least greatest with
      ⟨value, table, reached, ended, runs⟩ | ⟨value, table, halt, reached, below, fails, runs⟩
    · have filled := filled_of_reached_fillAt reached
      rw [runs, filled.table_of_le ended reached.le_max]
      by_cases full : table.filled = length
      · simp [bind, Except.bind, full, pure, Except.pure, Except.mapError]
      · simp [bind, Except.bind, full, throw, throwThe, MonadExceptOf.throw, Except.mapError]
    · have filled := filled_of_reached_fillAt reached
      rw [runs]
      rcases exists_failure_of_fillAt few filled fails with
        ⟨cause, aborts, rfl⟩ | ⟨name, answers, full, rfl⟩
      · rw [filled.table_of_abort below aborts]
        rfl
      · have progress := filled.progress
        rw [full] at progress
        rw [table_of_full progress below answers]
        rfl

end Filling

/-- No counter of the passes leaves its representation, however wide the range is. At every value
that a pass comes to, the names so far are no more than the declared values below it, and these no
more than the enumerators. The value does not pass the end of the range, and no more slots are
filled than there are. So the next value and the next number exist wherever they are asked for, a
name has its slot, and the number in a refusal is that of the names up to the one without a slot. -/
theorem counters_in_range (enumeration : Enumeration) (style : Style) (range : Range) (length : Nat)
    (few : enumeration.enumerators.length < UInt64.size)
    (least : range.start ∈ Representation.i128) (greatest : range.stop ∈ Representation.i128) :
    (∀ value count,
      Reached (countAt (enumeration.nameAt style)) range.start range.stop 0 value count →
      count ≤ (valuesBelow enumeration value).length ∧
      (valuesBelow enumeration value).length ≤ enumeration.enumerators.length ∧
      value ≤ max range.start range.stop ∧
      (value < range.stop → nextValue value = .ok (value + 1) ∧
        ∀ halt, countAt (enumeration.nameAt style) value count = .error halt →
          ∃ cause, halt = .failure (.abort cause))) ∧
    (∀ value table,
      Reached (fillAt (enumeration.nameAt style)) range.start range.stop (.empty length) value
        table →
      table.filled ≤ length ∧
      table.filled ≤ (valuesBelow enumeration value).length ∧
      value ≤ max range.start range.stop ∧
      (value < range.stop → nextValue value = .ok (value + 1) ∧
        ∀ halt, fillAt (enumeration.nameAt style) value table = .error halt →
          (∃ cause, halt = .failure (.abort cause)) ∨
          halt = .failure (.refusal (.wrongLength length (length + 1))) ∧
            length + 1 < UInt64.size ∧
            (namesIn (enumeration.nameAt style) ⟨range.start, value + 1⟩).length = length + 1)) ∧
    ∀ searcher,
      Counters.count enumeration style searcher range =
        (enumeration.count style searcher range).mapError .failure ∧
      Counters.table enumeration style searcher range length =
        (enumeration.table style searcher range length).mapError .failure := by
  refine ⟨?_, ?_, fun searcher => ⟨count_eq few least greatest searcher,
    table_eq few least greatest searcher length⟩⟩
  · intro value count reached
    have progress := progress_of_reached_countAt reached
    refine ⟨progress.le_valuesBelow, length_valuesBelow_le _ _, reached.le_max, fun below => ?_⟩
    refine ⟨nextValue_of_lt least greatest progress.ordered below, fun halt fails => ?_⟩
    obtain ⟨cause, -, aborted⟩ := exists_abort_of_countAt few progress fails
    exact ⟨cause, aborted⟩
  · intro value table reached
    have filled := filled_of_reached_fillAt reached
    have progress := filled.progress
    refine ⟨filled.le, progress.le_valuesBelow, reached.le_max, fun below => ?_⟩
    refine ⟨nextValue_of_lt least greatest progress.ordered below, fun halt fails => ?_⟩
    rcases exists_failure_of_fillAt few filled fails with
      ⟨cause, -, aborted⟩ | ⟨name, answers, full, refused⟩
    · exact .inl ⟨cause, aborted⟩
    · have more := progress.next answers
      rw [full] at more
      have enough := Nat.le_trans more.le_valuesBelow (length_valuesBelow_le _ _)
      exact .inr ⟨refused, Nat.lt_of_le_of_lt enough few, more.counted.symm⟩

/-- The widest range, with an enumerator at its start. -/
theorem counters_in_range_widest :
    let enumeration : Enumeration :=
      ⟨"E", .i128, [⟨Representation.i128.least, "[E::A]"⟩], none, none, {}, 1024⟩
    let range : Range := ⟨Representation.i128.least, Representation.i128.greatest⟩
    enumeration.enumerators.length < UInt64.size ∧
      range.start ∈ Representation.i128 ∧ range.stop ∈ Representation.i128 ∧
      Reached (countAt (enumeration.nameAt .qualified)) range.start range.stop 0
        (range.start + 1) 1 ∧
      1 ≤ (valuesBelow enumeration (range.start + 1)).length ∧
      nextValue (range.start + 1) = .ok (range.start + 1 + 1) ∧
      Counters.count enumeration .qualified .sequential range =
        (enumeration.count .qualified .sequential range).mapError .failure := by
  intro enumeration range
  have few : enumeration.enumerators.length < UInt64.size := by decide
  have least : range.start ∈ Representation.i128 := by decide
  have greatest : range.stop ∈ Representation.i128 := by decide
  have reached : Reached (countAt (enumeration.nameAt .qualified)) range.start range.stop 0
      (range.start + 1) 1 := .next .start (by decide) (by decide) (by decide)
  obtain ⟨counting, -, passes⟩ :=
    counters_in_range enumeration .qualified range 1 few least greatest
  obtain ⟨fewer, -, -, further⟩ := counting _ _ reached
  obtain ⟨advances, -⟩ := further (by decide)
  exact ⟨few, least, greatest, reached, fewer, advances, (passes .sequential).1⟩

end Counters

end EnumNames
