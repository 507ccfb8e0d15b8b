import EnumNames.Failure
import EnumNames.Signature.Style
/-!
# Signatures of values without a name

A value that no enumerator has is shown as an integer that is cast to the type. Only the last
segment of the name of the type is shown, so the cast holds no qualifier. The bracketed style
writes the magnitude in hexadecimal, the qualified one in decimal, and either puts a minus sign
between the cast and the magnitude of a negative value.
-/
namespace EnumNames.Signature

/-- The room for the signature of a value without a name, in bytes. -/
def capacity : Nat := 256

/-- What follows the last `::`, where two that overlap count as two. -/
def afterQualifier? : List Char → Option (List Char)
  | [] => none
  | char :: rest =>
    match afterQualifier? rest with
    | some segment => some segment
    | none => if char = ':' ∧ rest.head? = some ':' then some rest.tail else none

/-- The last segment of a path: what follows its last qualifier, or all of it. -/
def lastSegment (path : String) : String :=
  String.ofList ((afterQualifier? path.toList).getD path.toList)

/-- The digits of a number, the letters among them in lower case. -/
def magnitude (base value : Nat) : String := String.ofList (Nat.toDigits base value)

/-- The minus sign of a negative value. -/
def sign (value : Int) : String := if value < 0 then "-" else ""

/-- The spelling of a value that is cast to a type. -/
def Style.cast : Style → (type : String) → (value : Int) → String
  | bracketed, type, value =>
    "(enum " ++ type ++ ")" ++ sign value ++ "0x" ++ magnitude 16 value.natAbs
  | qualified, type, value => "(" ++ type ++ ")" ++ sign value ++ magnitude 10 value.natAbs

/-- The signature of a value of the type that no enumerator has, whatever its length. -/
def Style.undeclared (style : Style) (type : String) (value : Int) : String :=
  style.signature (style.cast (lastSegment type) value)

/-- The signature of a value that no enumerator has. One longer than the room for it ends the
evaluation. -/
def render (style : Style) (type : String) (value : Int) : Except Abort String :=
  let text := style.undeclared type value
  if text.utf8ByteSize ≤ capacity then .ok text else .error .overCapacity

end EnumNames.Signature
