import EnumNames.Declaration.Expansion
import EnumNames.Table
/-!
# Tables of declarations

The table that a declaration asks for is evaluated together with all constants of its expansion, and
not at all if one of them has another type than it is declared with. Two things in a declaration
settle the type of a constant: a suffix gives a literal the type that it names, and a type hides the
one of the language that has its name.
-/
namespace EnumNames.Declaration

/-- Why a table that was asked for is not there. -/
inductive TableFault where
  /-- A constant is not of its type. -/
  | illTyped
  /-- The evaluation has ended. -/
  | aborted (cause : Abort)
deriving DecidableEq, Repr

/-- Whether a literal can be a constant of the type `usize`. Without a suffix it is of any integer
type that has its value. -/
def Numeral.isSize (numeral : Numeral) : Bool :=
  (numeral.suffix = "" || numeral.suffix = "usize") && numeral.value ≤ Ceiling.greatest

namespace Expansion

/-- Whether a name stands for the type of the language in an expansion. The type that is declared
hides the one that has its name, also if it is named by a raw word. -/
def sees (expansion : Expansion) (primitive : String) : Bool := expansion.type.plain ≠ primitive

/-- Whether the constants of an expansion have their types. The name of the type is a `str` and all
values are `i128`; there is a `usize` only for a ceiling that is given. -/
def isTyped (expansion : Expansion) : Bool :=
  expansion.sees "str" && expansion.sees "i128" &&
    expansion.options.ceiling.all fun numeral => expansion.sees "usize" && numeral.isSize

/-- The table of an expansion whose variants have these values, if it asks for one. -/
def tabulate (expansion : Expansion) (build : Build) (values : List Int) :
    Except TableFault (List String) :=
  if expansion.isTyped then
    ((expansion.enumeration build values).ownNames build.style).mapError .aborted
  else .error .illTyped

end Expansion

end EnumNames.Declaration
