import EnumNames.Declaration.Grammar.Operand
/-!
# Operations

What goes on with an operand: operators with their right sides, ranges, and conversions to a type.
An operator is taken as long as it binds tightly enough. A range is no left side of an operator,
and a comparison no left side of another one.
-/
namespace EnumNames.Declaration.Grammar

open Reader

variable (nested : Nested)

/-- Whether no operand stands here as the end of a range. -/
def rangeEnds (setting : Setting) (tokens : List Token) : Bool :=
  tokens.isEmpty || beginsOnly tokens "." [".."] ||
    setting = .condition && begins tokens (.group .brace) ||
    beginsAny tokens [",", ";", "?", "=>", "=", "+", "/", "%", "^", ">", "<=", "!=", "-=", "*=",
      "&=", "|=", "<<=", "as"]

/-- The points of a range and its end, which may be missing unless the range includes it. -/
def rangeTail (setting : Setting) : Reader Unit := do
  let inclusive ← rangePoints
  unless !inclusive && rangeEnds setting (← ahead) do
    let _ ← nested.right setting .range

/-- What a conversion goes on with, although that is for operands alone. -/
def continuation? (tokens : List Token) : Option Continuation :=
  let behind := second tokens
  if beginsOnly tokens "." [".."] then
    if begins behind "await" then some .waiting
    else if begins behind .identifier &&
        (begins (third tokens) (.group .parenthesis) || begins (third tokens) "::") then
      some .method
    else some .field
  else if begins tokens "?" then some .question
  else if begins tokens (.group .bracket) then some .index
  else if begins tokens (.group .parenthesis) then some .call
  else none

/-- The type behind `as`. -/
def conversion : Reader Unit := do
  expect "as"
  let _ ← nested.type .conversion
  match continuation? (← ahead) with
  | some continuation => fail (.flawed (.continuedConversion continuation))
  | none => return

/-- An operator of a level, so many tokens wide, and its right side. -/
def operation (setting : Setting) (level : Level) (width : Nat) (left : Shape) :
    Reader Shape := do
  if level = .comparison && left == .comparison then fail (.flawed .chainedComparison)
  skip width
  let _ ← nested.right setting level
  return if level = .comparison then .comparison else .other

/-- What goes on with an operand and binds at least as tightly as a level. -/
def operations (setting : Setting) (base : Level) (operand : Shape) : Reader Shape :=
  loop (fun left => do
    let tokens ← ahead
    let level := levelHere tokens
    if left = .range || level = .jump || level.rank < base.rank then return (left, false)
    match operator? tokens, level with
    | some (_, width), _ => return (← operation nested setting level width left, true)
    | none, .range =>
      rangeTail nested setting
      return (.range, true)
    | none, .conversion =>
      conversion nested
      return (.other, true)
    | none, _ => return (← operation nested setting .assignment 1 left, true)) operand

end EnumNames.Declaration.Grammar
