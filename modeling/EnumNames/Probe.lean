import EnumNames.Enumeration
import EnumNames.Signature.Name
import EnumNames.Signature.Rendering
/-!
# Probes

A probe asks for the name at one value. The first enumerator with the value answers by its
signature. Where there is none, the signature of the bare value is rendered and read in its
place, and it must give no name.
-/
namespace EnumNames.Enumeration

open Signature

/-- The name at a value, if it has one. A value that no enumerator has is shown by its own
signature, and reading that signature must give no name. -/
def nameAt (enumeration : Enumeration) (style : Style) (value : Int) :
    Except Abort (Option String) := do
  match enumeration.find? value with
  | some enumerator => insist (decode style enumerator.signature)
  | none =>
    let signature ← render style enumeration.name value
    if (← insist (decode style signature)).isSome then throw .integerNamed
    return none

end EnumNames.Enumeration
