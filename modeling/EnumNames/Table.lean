import EnumNames.Probe
/-!
# Tables of names

A table lists the names of the values of a range in ascending order of value. Its length has to be
known before it is filled, so the range is probed twice: once to count the names, and once to
fill a table of that length. A probe can end the evaluation, and then so does the pass it is
part of.
-/
namespace EnumNames.Enumeration

open Signature

/-- The number of names that so many probes give, from a value upward. -/
def tally (probe : Int → Except Abort (Option String)) :
    (probes : Nat) → (value : Int) → Except Abort Nat
  | 0, _ => .ok 0
  | probes + 1, value =>
    match probe value with
    | .error cause => .error cause
    | .ok none => tally probe probes (value + 1)
    | .ok (some _) => (tally probe probes (value + 1)).map (· + 1)

/-- The number of names in a range. -/
def count (enumeration : Enumeration) (style : Style) (searcher : Searcher) (range : Range) :
    Except Failure Nat :=
  match searcher with
  | .bitflag => .error (.refusal .flagsUnsupported)
  | .sequential =>
    (tally (enumeration.nameAt style) range.size range.start).mapError .abort

/-- The names that so many probes give, from a value upward, as long as there is room. A name
without room is refused at once, before any later value is probed. -/
def fill (probe : Int → Except Abort (Option String)) (noRoom : Refusal) :
    (room probes : Nat) → (value : Int) → Except Failure (List String)
  | _, 0, _ => .ok []
  | room, probes + 1, value =>
    match probe value, room with
    | .error cause, _ => .error (.abort cause)
    | .ok none, room => fill probe noRoom room probes (value + 1)
    | .ok (some _), 0 => .error (.refusal noRoom)
    | .ok (some name), room + 1 =>
      (fill probe noRoom room probes (value + 1)).map (name :: ·)

/-- The table of the names in a range, which must be as many as the table is long. -/
def table (enumeration : Enumeration) (style : Style) (searcher : Searcher) (range : Range)
    (length : Nat) : Except Failure (List String) :=
  match searcher with
  | .bitflag => .error (.refusal .flagsUnsupported)
  | .sequential => do
    let noRoom := .wrongLength length (length + 1)
    let names ← fill (enumeration.nameAt style) noRoom length range.size range.start
    if names.length ≠ length then throw (.refusal (.wrongLength length names.length))
    return names

/-- The names between two bounds: the range is checked, its names are counted, and a table of
that length is filled. -/
def names (enumeration : Enumeration) (style : Style) (searcher : Searcher)
    (lower upper : Bound) : Except Abort (List String) := do
  let range ← insistOn (enumeration.range lower upper)
  let length ← insist (enumeration.count style searcher range)
  insist (enumeration.table style searcher range length)

/-- The names between the bounds of the enumeration itself, searched as it says. -/
def ownNames (enumeration : Enumeration) (style : Style) : Except Abort (List String) :=
  enumeration.names style enumeration.searcher enumeration.lower enumeration.upper

end EnumNames.Enumeration
