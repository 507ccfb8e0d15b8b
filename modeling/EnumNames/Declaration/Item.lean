import EnumNames.Declaration.Attribute
/-!
# Declared types

A declaration is a type with its variants, each with the attributes in front of it. Attributes
are taken apart only as far as their own form goes; what their items mean is read by others.
-/
namespace EnumNames

namespace Declaration

/-- What kind of type is declared. -/
inductive Kind where
  | enumeration
  | record
  | union
deriving DecidableEq, Repr

/-- A variant of a declared type. -/
structure Variant where
  /-- The name of the variant. -/
  name : Word
  /-- The attributes in front of it. -/
  attributes : List Attribute
  /-- Whether it is written without fields, not even an empty list of them. -/
  isUnit : Bool
deriving DecidableEq, Repr

end Declaration

/-- A declared type. -/
structure Declaration where
  /-- What kind of type it is. -/
  kind : Declaration.Kind
  /-- From where the type can be seen. -/
  visibility : List Declaration.Token
  /-- The name of the type. -/
  name : Declaration.Word
  /-- What stands after the name, in front of the variants. -/
  generics : List Declaration.Token
  /-- The attributes in front of the declaration. -/
  attributes : List Declaration.Attribute
  /-- The variants in order. -/
  variants : List Declaration.Variant
deriving DecidableEq, Repr

namespace Declaration

/-- Whether the type has parameters. An empty list of them is none. -/
def isParameterized (declaration : Declaration) : Bool :=
  match declaration.generics with
  | .mark '<' _ :: .mark '>' _ :: _ => false
  | .mark '<' _ :: _ => true
  | _ => false

end Declaration

end EnumNames
