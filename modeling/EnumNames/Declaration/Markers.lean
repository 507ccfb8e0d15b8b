import EnumNames.Declaration.Attribute
/-!
# Markers of variants

A variant can be marked as the one that the range of the table begins or ends with. To mark a
variant twice as the same end changes nothing.
-/
namespace EnumNames.Declaration

/-- How a variant is marked. -/
structure Markers where
  /-- Whether the range begins with the variant. -/
  lower : Bool := false
  /-- Whether the range ends with the variant. -/
  upper : Bool := false
deriving DecidableEq, Repr

namespace Markers

/-- Reads one marker. -/
def readItem : Attribute.ItemReader Markers := fun markers path =>
  match path.name? with
  | some "begin" => pure { markers with lower := true }
  | some "end" => pure { markers with upper := true }
  | _ => Reader.fail .unknownMarker

/-- The markers that the attributes of a variant give. -/
def ofAttributes (attributes : List Attribute) : Except Fault Markers :=
  Attribute.readAll "strenum" readItem {} attributes

end Markers

end EnumNames.Declaration
