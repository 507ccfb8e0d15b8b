/-!
# Styles of signature

A signature is the text shown for one probe that is specialised to one value. Its style fixes the
text in front of the value and the text after it. The signature of an enumerator carries the name
of the type and that of the variant, joined as a path.
-/
namespace EnumNames.Signature

/-- A convention for the text of signatures. -/
inductive Style where
  /-- The value stands in the last pair of angle brackets. -/
  | bracketed
  /-- The value stands before the last byte. -/
  | qualified
deriving DecidableEq, Repr

namespace Style

/-- The text in front of the value. -/
def opening : Style → String
  | bracketed => "auto __cdecl strenum::stringify<"
  | qualified => "consteval auto strenum::stringify() [with auto Value = "

/-- The text after the value. -/
def closing : Style → String
  | bracketed => ">(void)"
  | qualified => "]"

/-- The signature of a probe at a value with this spelling. -/
def signature (style : Style) (value : String) : String :=
  style.opening ++ value ++ style.closing

/-- The signature of a variant of a type. -/
def declared (style : Style) (type variant : String) : String :=
  style.signature (type ++ "::" ++ variant)

end Style

end EnumNames.Signature
