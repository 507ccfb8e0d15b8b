import EnumNames.Range
/-!
# Enumerations

An enumeration is what a table of names is made from: a name, a representation, and enumerators
with a value and a signature each. Several enumerators may have one value; the first of them
speaks for it. What an enumeration does not say about its own table has a default, and that of the
ceiling is settled by its build.
-/
namespace EnumNames

/-- How the values of a range are searched for names. -/
inductive Searcher where
  /-- Every value of the range is probed, in ascending order. -/
  | sequential
  /-- Only combinations of flags would be probed; no such search exists. -/
  | bitflag
deriving DecidableEq, Repr

/-- A value that is declared, and the signature of the probe at it. -/
structure Enumerator where
  /-- The declared value. -/
  value : Int
  /-- The signature of the probe. -/
  signature : String
deriving DecidableEq, Repr

/-- What an enumeration says about its own table. -/
structure Overrides where
  /-- The lower bound. -/
  lower : Option Bound := none
  /-- The upper bound. -/
  upper : Option Bound := none
  /-- How the range is searched. -/
  searcher : Option Searcher := none
  /-- How many values may be probed. -/
  ceiling : Option Nat := none
deriving DecidableEq, Repr

/-- An enumeration whose values can be probed for names. -/
structure Enumeration where
  /-- The name of the type, which may be a path. -/
  name : String
  /-- The type of the values. -/
  representation : Representation
  /-- The enumerators in the order in which they are declared. -/
  enumerators : List Enumerator
  /-- The value of the variant that is marked as the lower bound. -/
  lowerMarker : Option Int := none
  /-- The value of the variant that is marked as the upper bound. -/
  upperMarker : Option Int := none
  /-- What the enumeration says about its own table. -/
  overrides : Overrides := {}
  /-- How many values may be probed where the enumeration does not say: the ceiling of its build. -/
  buildCeiling : Nat
deriving DecidableEq, Repr

namespace Enumeration

/-- The first enumerator with a value. -/
def find? (enumeration : Enumeration) (value : Int) : Option Enumerator :=
  enumeration.enumerators.find? (·.value = value)

/-- The lower bound of the table: the one given, or else the marked variant. -/
def lower (enumeration : Enumeration) : Bound :=
  enumeration.overrides.lower.getD (.ofMarker enumeration.lowerMarker)

/-- The upper bound of the table: the one given, or else the marked variant. -/
def upper (enumeration : Enumeration) : Bound :=
  enumeration.overrides.upper.getD (.ofMarker enumeration.upperMarker)

/-- How the range of the table is searched. -/
def searcher (enumeration : Enumeration) : Searcher :=
  enumeration.overrides.searcher.getD .sequential

/-- How many values the table may probe. -/
def ceiling (enumeration : Enumeration) : Nat :=
  enumeration.overrides.ceiling.getD enumeration.buildCeiling

/-- The range between two bounds in the representation, no wider than the ceiling. -/
def range (enumeration : Enumeration) (lower upper : Bound) : Except Refusal Range := do
  (← Range.ofBounds enumeration.representation lower upper).within enumeration.ceiling

end Enumeration

end EnumNames
