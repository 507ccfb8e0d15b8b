import EnumNames.Declaration.Grammar.Statement
/-!
# Expressions in place of a bound

A bound is given by an expression, and most expressions give none. The readers of the parts of an
expression are tied together here, for as many levels of nesting as there are tokens, and tell
what is wrong with giving a bound by an expression.
-/
namespace EnumNames.Declaration

/-- The readers of parts in which so many levels of further parts are nested. -/
def Grammar.nested : (levels : Nat) → Nested
  | 0 => .deepest
  | levels + 1 =>
    let inner := nested levels
    { expression := expression inner
      operand := operand inner
      leading := leading inner
      right := right inner
      type := type inner
      bound := bound inner
      pattern := pattern inner
      statements := statements inner
      definition := definition inner
      imports := imports inner
      fields := fields inner }

namespace Expression

/-- The readers of the parts of these tokens. Each level takes a token. -/
def parts (tokens : List Token) : Grammar.Nested := Grammar.nested (tokens.length + 1)

/-- The annotations in front of an expression. What stands between the brackets of one has parts of
its own, whatever follows it. -/
def annotations : Reader Bool :=
  Grammar.annotationsOf fun tokens => Grammar.annotationContent (parts tokens) tokens

/-- What is wrong with giving a bound by an expression of this shape. -/
def fault : Grammar.Shape → Fault
  | .path => .notVariantName
  | .negation => .notInteger
  | _ => .notBound

/-- Refuses the expression that begins here as a bound: it is neither the name of a variant nor an
integer. -/
def refuse {α : Type} (tokens : List Token) : Reader α := fun _ =>
  match Grammar.expression (parts tokens) .free tokens with
  | .error cause => .error cause
  | .ok reading => .error (fault reading.value)

end Expression

end EnumNames.Declaration
