import EnumNames.Declaration.Grammar.Nested
import EnumNames.Declaration.Literal
/-!
# Members

The member of a value is a name, or an index that is written as an integer without a suffix. Two
indices with a point between them are spelled like one number.
-/
namespace EnumNames.Declaration.Grammar

open Reader

/-- What is wrong with an integer as an index, if anything is. -/
def indexFault? (value : Nat) (suffix : String) : Option Fault :=
  if suffix ≠ "" then some (.flawed .suffixedIndex)
  else if value < UInt32.size then none
  else some .tooLarge

/-- A member, and whether it is a name. -/
def member : Reader Bool := do
  match ← ahead with
  | .literal (.integer value suffix) :: _ =>
    match indexFault? value suffix with
    | some fault => fail fault
    | none => skip 1; return false
  | .mark '-' _ :: .literal (.integer _ suffix) :: _ =>
    fail (if suffix ≠ "" then .flawed .suffixedIndex else .negative)
  | tokens =>
    unless begins tokens .identifier do missing .member
    identifier
    return true

/-- What is wrong with a part of a number as an index, if anything is. -/
def partFault? (part : String) : Option Fault :=
  match Literal.readNumber? part.toList with
  | some (.integer value suffix, _) => indexFault? value suffix
  | _ => some (.expected .integer false)

/-- What is wrong with the parts of a number as indices, if anything is. -/
def indicesFault? (parts : List String) : Option Fault := parts.findSome? partFault?

/-- The indices that are spelled like one number, if there are any, and whether a member still
has to follow. -/
def indices : Reader Bool := do
  match ← ahead with
  | .literal (.float spelling) :: _ =>
    let parts := spelling.splitOn "."
    let ended := parts.getLast? = some ""
    match indicesFault? (if ended then parts.dropLast else parts) with
    | some fault => fail fault
    | none => skip 1; return ended
  | .mark '-' _ :: .literal (.float spelling) :: _ =>
    fail (if spelling.contains '.' then .negative else .expected .integer false)
  | _ => return true

end EnumNames.Declaration.Grammar
