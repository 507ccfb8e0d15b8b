import EnumNames.Declaration.End
import EnumNames.Declaration.Item
import EnumNames.Declaration.Markers
/-!
# Surveys of variants

A survey goes through the variants of a declaration in their order. It collects the variants and
the marked ones among them, and every fault that it meets, so that no fault hides a later one.
-/
namespace EnumNames.Declaration

/-- What is known after some of the variants. -/
structure Survey where
  /-- The faults in order. -/
  faults : List Fault := []
  /-- The variants without fault, in order. -/
  enumerators : List Word := []
  /-- The last variant that is marked as the lower bound. -/
  lowerMarker : Option Word := none
  /-- The last variant that is marked as the upper bound. -/
  upperMarker : Option Word := none
deriving DecidableEq, Repr

namespace Survey

/-- The survey with a fault added. -/
def fail (survey : Survey) (fault : Fault) : Survey :=
  { survey with faults := survey.faults ++ [fault] }

/-- The survey with a variant as the lower bound, which is a fault if there was one. -/
def markLower (survey : Survey) (name : Word) : Survey :=
  let survey := if survey.lowerMarker.isSome then survey.fail (.markedTwice .lower) else survey
  { survey with lowerMarker := some name }

/-- The survey with a variant as the upper bound, which is a fault if there was one. -/
def markUpper (survey : Survey) (name : Word) : Survey :=
  let survey := if survey.upperMarker.isSome then survey.fail (.markedTwice .upper) else survey
  { survey with upperMarker := some name }

/-- The survey with a variant added. The markers of a variant with fields, or with a fault in its
attributes, do not count. -/
def addVariant (survey : Survey) (variant : Variant) : Survey :=
  if !variant.isUnit then survey.fail .hasFields
  else
    match Markers.ofAttributes variant.attributes with
    | .error fault => survey.fail fault
    | .ok markers =>
      let survey := if markers.lower then survey.markLower variant.name else survey
      let survey := if markers.upper then survey.markUpper variant.name else survey
      { survey with enumerators := survey.enumerators ++ [variant.name] }

/-- The survey with a fault added if an end is given by a name that no variant has. The names are
compared as they are written. -/
def checkEnd (survey : Survey) (declaration : Declaration) : Option End → Survey
  | some (.variant name) =>
    if declaration.variants.any (·.name = name) then survey
    else survey.fail (.noSuchVariant name declaration.name)
  | _ => survey

end Survey

end EnumNames.Declaration
