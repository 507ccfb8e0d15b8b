import EnumNames.Declaration.Expression
import EnumNames.Representation
/-!
# Ends of a range as they are declared

An end is declared by the name of a variant, or by an integer literal with or without a minus
sign. Every other expression is a fault, and so is one that only begins with such a name or
literal.
-/
namespace EnumNames.Declaration

/-- One end of the range as it is declared. -/
inductive End where
  /-- The variant with this name. -/
  | variant (name : Word)
  /-- The value itself. -/
  | underlying (value : Int)
deriving DecidableEq, Repr

namespace End

open Reader

/-- The integer that a literal gives, which is limited before any minus sign in front of it
counts. -/
def limited (value : Nat) : Reader Nat :=
  if (value : Int) ∈ Representation.i128 then pure value else fail .tooLarge

/-- The integer literal in front, if it is all of its expression. -/
def readInteger (refuse : Reader Nat) : Reader Nat := do
  match ← ahead with
  | .literal (.integer value _) :: rest =>
    if continuesOperand rest then refuse
    else
      skip 1
      limited value
  | _ => refuse

/-- The end at the front of the tokens, which may be annotated, and so may be the literal behind a
minus sign. A name or a literal that goes on is a larger expression, and no larger expression
gives an end. -/
def read : Reader End := do
  let tokens ← ahead
  let _ ← Expression.annotations
  match ← ahead with
  | .word name :: rest =>
    if name.startsPath && !continuesName name rest then
      skip 1
      return variant name
    else Expression.refuse tokens
  | .mark '-' _ :: _ =>
    skip 1
    let _ ← Expression.annotations
    return underlying (-(← readInteger (Expression.refuse tokens) : Nat))
  | _ => return underlying (← readInteger (Expression.refuse tokens) : Nat)

end End

end EnumNames.Declaration
