import EnumNames.Build
import EnumNames.Declaration.Hints
import EnumNames.Declaration.Options
import EnumNames.Declaration.Survey
/-!
# Expansion of declarations

A declaration expands to what is known of the enumeration from its text alone, or to the list of
all its faults. Faults are collected in the order of the declaration: the representation, the
options, the variants one by one, and then the ends that are given by name. Given the values of
its variants, an expansion is in every build an enumeration whose values can be probed.
-/
namespace EnumNames.Declaration

/-- What is known of an enumeration from its declaration. -/
structure Expansion where
  /-- The name of the type as it is written. -/
  type : Word
  /-- The type of the values. -/
  representation : Representation
  /-- The variants in order. -/
  enumerators : List Word
  /-- The variant that is marked as the lower bound. -/
  lowerMarker : Option Word
  /-- The variant that is marked as the upper bound. -/
  upperMarker : Option Word
  /-- The options. -/
  options : Options
  /-- From where the table can be seen, if the declaration asks for one. -/
  table : Option (List Token)
deriving DecidableEq, Repr

/-- A part of a declaration together with the faults found in it. A part that cannot be read
counts as not written. -/
def orFault {α : Type} (absent : α) : Except Fault α → α × List Fault
  | .ok part => (part, [])
  | .error fault => (absent, [fault])

/-- Whether the declaration asks for a table: both ends of the range are known, and there is a
search for them. -/
def asksForTable (survey : Survey) (options : Options) : Bool :=
  (options.lower.isSome || survey.lowerMarker.isSome) &&
    (options.upper.isSome || survey.upperMarker.isSome) && options.searcher != some .bitflag

/-- What is known of an enumeration from its declaration, or else all the faults of the
declaration. A type that is no enumeration, or that has parameters, has only that fault. -/
def expand (declaration : Declaration) : Except (List Fault) Expansion :=
  if declaration.kind ≠ .enumeration then .error [.notEnumeration]
  else if declaration.isParameterized then .error [.parameterized]
  else
    let (representation, hintFaults) := orFault .isize (representationOf declaration.attributes)
    let (options, optionFaults) := orFault {} (Options.ofAttributes declaration.attributes)
    let survey := declaration.variants.foldl Survey.addVariant
      { faults := hintFaults ++ optionFaults }
    let survey := (survey.checkEnd declaration options.lower).checkEnd declaration options.upper
    if survey.faults.isEmpty then
      .ok {
        type := declaration.name
        representation
        enumerators := survey.enumerators
        lowerMarker := survey.lowerMarker
        upperMarker := survey.upperMarker
        options
        table := if asksForTable survey options then some declaration.visibility else none }
    else .error survey.faults

/-- The values of variants in order. A variant without a value of its own has the value after that
of the variant before it, and the first has zero. -/
def discriminants (next : Int := 0) : List (Option Int) → List Int
  | [] => []
  | explicit :: later => explicit.getD next :: discriminants (explicit.getD next + 1) later

/-- Every variant has a value. -/
@[simp] theorem length_discriminants (next : Int) (explicit : List (Option Int)) :
    (discriminants next explicit).length = explicit.length := by
  induction explicit generalizing next with
  | nil => rfl
  | cons first later ih => simp [discriminants, ih]

namespace Expansion

/-- The value of the variant with a name, the variants having these values. -/
def valueOf? (expansion : Expansion) (values : List Int) (name : Word) : Option Int :=
  ((expansion.enumerators.zip values).find? (·.1 = name)).map (·.2)

/-- The bound that a declared end gives. -/
def boundOf (expansion : Expansion) (values : List Int) : End → Bound
  | .variant name => .ofMarker (expansion.valueOf? values name)
  | .underlying value => .underlying value

/-- The enumeration whose variants have these values. Names lose the `r#` of raw words. -/
def enumeration (expansion : Expansion) (build : Build) (values : List Int) : Enumeration where
  name := expansion.type.plain
  representation := expansion.representation
  enumerators := (expansion.enumerators.zip values).map fun (name, value) =>
    ⟨value, build.style.declared expansion.type.plain name.plain⟩
  lowerMarker := expansion.lowerMarker.bind (expansion.valueOf? values)
  upperMarker := expansion.upperMarker.bind (expansion.valueOf? values)
  overrides := {
    lower := expansion.options.lower.map (expansion.boundOf values)
    upper := expansion.options.upper.map (expansion.boundOf values)
    searcher := expansion.options.searcher
    ceiling := expansion.options.ceiling.map (·.value) }
  buildCeiling := build.ceiling

end Expansion

end EnumNames.Declaration
