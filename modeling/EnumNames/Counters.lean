import EnumNames.Table
/-!
# The passes with counters

Each pass is a loop that keeps the value it is at and the number of names so far in counters of a
fixed width, and the second one writes the names into the slots of its table. A counter without a
next value ends a pass, and so does a name written behind the last slot.
-/
namespace EnumNames.Counters

open Signature Enumeration

/-- Why a pass with counters ends without an answer. -/
inductive Halt where
  /-- The pass fails. -/
  | failure (failure : Failure)
  /-- A counter has no next value. -/
  | overflow
  /-- A name is written behind the last slot. -/
  | noSuchSlot
deriving DecidableEq, Repr

/-- The number after a number of names, if a counter of 64 bits has it. -/
def nextNumber (number : Nat) : Except Halt Nat :=
  if number + 1 < UInt64.size then .ok (number + 1) else .error .overflow

/-- The value after a value, if the widest representation has it. -/
def nextValue (value : Int) : Except Halt Int :=
  if value + 1 ∈ Representation.i128 then .ok (value + 1) else .error .overflow

/-- Nothing but the next number comes after a number. -/
theorem eq_of_nextNumber {number next : Nat} (steps : nextNumber number = .ok next) :
    next = number + 1 := by
  rw [nextNumber] at steps
  split at steps
  · exact (Except.ok.inj steps).symm
  · contradiction

/-- Nothing but the next value comes after a value. -/
theorem eq_of_nextValue {value next : Int} (steps : nextValue value = .ok next) :
    next = value + 1 := by
  rw [nextValue] at steps
  split at steps
  · exact (Except.ok.inj steps).symm
  · contradiction

section Loop

variable {σ : Type}

/-- What is done at every value before an end, from a value upward. -/
def run (work : Int → σ → Except Halt σ) (stop value : Int) (state : σ) : Except Halt σ :=
  if value < stop then
    match work value state with
    | .error halt => .error halt
    | .ok state =>
      match _advances : nextValue value with
      | .error halt => .error halt
      | .ok next => run work stop next state
  else .ok state
termination_by (stop - value).toNat
decreasing_by
  have advances := eq_of_nextValue _advances
  omega

/-- The values that a loop comes to, and the state it is in when it does. -/
inductive Reached (work : Int → σ → Except Halt σ) (start stop : Int) (first : σ) :
    Int → σ → Prop
  /-- The loop begins at the start. -/
  | start : Reached work start stop first start first
  /-- Before the end, it goes on to the next value. -/
  | next {value next : Int} {state after : σ} (reached : Reached work start stop first value state)
      (below : value < stop) (works : work value state = .ok after)
      (advances : nextValue value = .ok next) : Reached work start stop first next after

end Loop

section Passes

/-- What ends a pass at a name without a slot: there is one name more than the table is long. -/
def noRoom (length : Nat) : Halt :=
  match nextNumber length with
  | .error halt => halt
  | .ok found => .failure (.refusal (.wrongLength length found))

variable (probe : Int → Except Abort (Option String))

/-- A name at a value is counted. -/
def countAt (value : Int) (count : Nat) : Except Halt Nat :=
  match probe value with
  | .error cause => .error (.failure (.abort cause))
  | .ok none => .ok count
  | .ok (some _) => nextNumber count

/-- A table that is being filled. -/
structure Filling (length : Nat) where
  /-- The slots of the table. -/
  slots : Vector String length
  /-- The number of slots that have a name. -/
  filled : Nat
deriving DecidableEq, Repr

/-- A table without names, in whose slots nothing stands. -/
def Filling.empty (length : Nat) : Filling length := ⟨.replicate length "", 0⟩

/-- A name at a value is written into the next slot. A name without a slot is refused at once. -/
def fillAt {length : Nat} (value : Int) (table : Filling length) : Except Halt (Filling length) :=
  match probe value with
  | .error cause => .error (.failure (.abort cause))
  | .ok none => .ok table
  | .ok (some name) =>
    if table.filled = length then .error (noRoom length)
    else if _inside : table.filled < length then
      (nextNumber table.filled).map (⟨table.slots.set table.filled name, ·⟩)
    else .error .noSuchSlot

end Passes

/-- The number of names in a range, in a counter. -/
def count (enumeration : Enumeration) (style : Style) (searcher : Searcher) (range : Range) :
    Except Halt Nat :=
  match searcher with
  | .bitflag => .error (.failure (.refusal .flagsUnsupported))
  | .sequential => run (countAt (enumeration.nameAt style)) range.stop range.start 0

/-- The table of the names in a range, from its slots. -/
def table (enumeration : Enumeration) (style : Style) (searcher : Searcher) (range : Range)
    (length : Nat) : Except Halt (List String) :=
  match searcher with
  | .bitflag => .error (.failure (.refusal .flagsUnsupported))
  | .sequential => do
    let table ← run (fillAt (enumeration.nameAt style)) range.stop range.start (.empty length)
    if table.filled ≠ length then
      throw (.failure (.refusal (.wrongLength length table.filled)))
    return table.slots.toList

end EnumNames.Counters
