import EnumNames.Failure
import EnumNames.Signature.Style
/-!
# Where a signature carries its value

Both styles are read from the end toward the start, so the readers below take the bytes in
reverse: the head of the list is the last byte not yet looked at, and the number of bytes after
it in the list is its offset in the signature.
-/
namespace EnumNames.Signature

open Text

/-- Byte offsets of the segment of a signature that carries the value. -/
structure Span where
  /-- Offset of the first byte of the segment. -/
  start : Nat
  /-- Offset just past the last byte of the segment. -/
  stop : Nat
deriving DecidableEq, Repr

/-- The start of the segment that ends in front of a closing bracket: after the bracket that opens
it, or after a `::` that is inside no other pair. The number is that of pairs entered since. -/
def segmentStart? (nested : Nat) : List UInt8 → Option Nat
  | [] => none
  | byte :: before =>
    if byte = closeAngle then segmentStart? (nested + 1) before
    else if byte = openAngle then
      match nested with
      | 0 => some (before.length + 1)
      | outer + 1 => segmentStart? outer before
    else if nested = 0 ∧ byte = colon ∧ before.head? = some colon then some (before.length + 1)
    else segmentStart? nested before

/-- The segment in front of the last closing bracket. An opening bracket after that one belongs to
no pair and has no meaning. -/
def bracketed? (reversed : List UInt8) : Option Span :=
  -- What comes after the last closing bracket is skipped, opening brackets included.
  match reversed.dropWhile (· ≠ closeAngle) with
  | [] => none
  | _ :: before => (segmentStart? 0 before).map fun start => ⟨start, before.length⟩

/-- The offset just past the last separator. A separator is a `::`, or a space that an opening
parenthesis follows. -/
def separatorEnd? : List UInt8 → Option Nat
  | [] => none
  | byte :: before =>
    if byte = colon ∧ before.head? = some colon then some (before.length + 1)
    -- The space is the separator, and the segment begins with the parenthesis.
    else if byte = parenthesis ∧ before.head? = some space then some before.length
    else separatorEnd? before

/-- The segment from the last separator up to the last byte. If the separator is itself the last
byte there is none, and no earlier separator takes its place. -/
def qualified? (reversed : List UInt8) : Option Span :=
  match separatorEnd? reversed with
  | none => none
  | some start =>
    if start ≤ reversed.length - 1 then some ⟨start, reversed.length - 1⟩ else none

/-- The segment of a signature that carries the value, empty in an empty signature. -/
def locate (style : Style) (signature : String) : Except Refusal Span :=
  let reversed := (bytes signature).reverse
  let found :=
    match reversed, style with
    | [], _ => some ⟨0, 0⟩
    | _ :: _, .bracketed => bracketed? reversed
    | _ :: _, .qualified => qualified? reversed
  match found with
  | some span => .ok span
  | none => .error .unrecognizedSignature

end EnumNames.Signature
