import EnumNames.Ceiling
import EnumNames.Declaration.Attribute
import EnumNames.Declaration.End
import EnumNames.Enumeration
/-!
# Options of an enumeration

The options that an enumeration declares for its table: the two ends of the range, the searcher,
and the ceiling. Each end can be given once; of several searchers or ceilings the last one counts.
-/
namespace EnumNames.Declaration

open Reader

/-- The searcher with a name. -/
def searcher? : String → Option Searcher
  | "Sequential" => some .sequential
  | "Bitflag" => some .bitflag
  | _ => none

/-- The searcher at the front of the tokens. A raw word names none. -/
def readSearcher : Reader Searcher := do
  let tokens ← ahead
  identifier
  match tokens with
  | .word ⟨false, name⟩ :: _ =>
    match searcher? name with
    | some searcher => return searcher
    | none => fail .unknownSearcher
  | _ => fail .unknownSearcher

/-- An integer literal that is written again where a constant is declared. Its suffix is written
with it. -/
structure Numeral where
  /-- The integer. -/
  value : Nat
  /-- The suffix behind the digits, which is empty if there is none. -/
  suffix : String
deriving DecidableEq, Repr

/-- The ceiling at the front of the tokens. A minus sign belongs to it and makes it no ceiling,
even that of a zero. A suffix is not looked at. -/
def readCeiling : Reader Numeral := do
  match ← ahead with
  | .literal (.integer value suffix) :: _ =>
    if value ≤ Ceiling.greatest then
      skip 1
      return ⟨value, suffix⟩
    else fail .tooLarge
  | .mark '-' _ :: .literal (.integer _ _) :: _ => fail .negative
  | _ => missing .integer

/-- What an enumeration declares for its table. -/
structure Options where
  /-- The lower end. -/
  lower : Option End := none
  /-- The upper end. -/
  upper : Option End := none
  /-- How the range is searched. -/
  searcher : Option Searcher := none
  /-- How many values may be probed. -/
  ceiling : Option Numeral := none
deriving DecidableEq, Repr

namespace Options

/-- The end that is declared for a side. -/
def givenEnd (options : Options) : Side → Option End
  | .lower => options.lower
  | .upper => options.upper

/-- The options with an end added. -/
def withEnd (options : Options) (side : Side) (given : End) : Options :=
  match side with
  | .lower => { options with lower := some given }
  | .upper => { options with upper := some given }

/-- Reads an end into the options. That it was given before is noticed first. -/
def readEnd (side : Side) (options : Options) : Reader Options := do
  if (options.givenEnd side).isSome then fail (.givenTwice side)
  else
    expect "="
    return options.withEnd side (← End.read)

/-- Reads one option. -/
def readItem : Attribute.ItemReader Options := fun options path =>
  match path.name? with
  | some "begin" => readEnd .lower options
  | some "end" => readEnd .upper options
  | some "searcher" => do
    expect "="
    return { options with searcher := some (← readSearcher) }
  | some "max_search_size" => do
    expect "="
    return { options with ceiling := some (← readCeiling) }
  | _ => fail .unknownOption

/-- The options that the attributes of an enumeration give. -/
def ofAttributes (attributes : List Attribute) : Except Fault Options :=
  Attribute.readAll "strenum" readItem {} attributes

end Options

end EnumNames.Declaration
