import EnumNames.Ceiling
import EnumNames.Signature.Style
/-!
# Builds

Two things are settled for all enumerations at once: the style of their signatures, and the ceiling
of those that set none. The environment of a build may have a text for that ceiling, which then has
to spell one.
-/
namespace EnumNames

/-- What is settled for all enumerations. -/
structure Build where
  /-- The style of their signatures. -/
  style : Signature.Style
  /-- The ceiling of those that set none. -/
  ceiling : Nat
deriving DecidableEq, Repr

namespace Build

/-- Why there is no build. -/
inductive Fault where
  /-- The text in the environment spells no ceiling. -/
  | unreadCeiling
deriving DecidableEq, Repr

/-- The wording of a fault. -/
def Fault.message : Fault → String
  | unreadCeiling => "STRENUM_MAX_SEARCH_SIZE must be a decimal integer"

/-- The build of a style, with the text for the ceiling that the environment has, if it has one. -/
def ofEnvironment (style : Signature.Style) : (given : Option String) → Except Fault Build
  | none => .ok ⟨style, Ceiling.standard⟩
  | some text =>
    match Ceiling.read? text with
    | some ceiling => .ok ⟨style, ceiling⟩
    | none => .error .unreadCeiling

end Build

end EnumNames
