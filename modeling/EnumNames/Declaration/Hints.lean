import EnumNames.Declaration.Attribute
import EnumNames.Representation
/-!
# Hints on the representation

The attributes of an enumeration can name the type of its values, among hints on other things.
Of several types the last one counts, and an enumeration that names none has the signed type of
the size of an address.
-/
namespace EnumNames.Declaration

/-- Reads one hint on the representation. The last integer type that is named counts, other
hints do not, and a group after one of those is part of it. -/
def readHint : Attribute.ItemReader Representation := fun representation path =>
  match path.name? with
  | some "u128" => Reader.fail .unsupportedRepresentation
  | name =>
    match name.bind Representation.ofName? with
    | some named => pure named
    | none => do
      if ← Reader.next (.group .parenthesis) then Reader.within .parenthesis Reader.remaining
      return representation

/-- The representation that the attributes of an enumeration give, or the one that an enumeration
has without them. -/
def representationOf (attributes : List Attribute) : Except Fault Representation :=
  Attribute.readAll "repr" readHint .isize attributes

end EnumNames.Declaration
