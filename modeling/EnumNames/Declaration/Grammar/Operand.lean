import EnumNames.Declaration.Grammar.Block
/-!
# Parts of operands

The forms that an operand can have, apart from blocks: paths with what belongs to them, closures,
arrays and jumps. Behind an operand stand its calls and accesses.
-/
namespace EnumNames.Declaration.Grammar

open Reader

variable (nested : Nested)

/-- An expression whose shape does not matter. -/
def anyExpression : Reader Unit := do
  let _ ← nested.expression .free

/-- The parameters of a closure, with their types if they have any. -/
def closureParameters : Reader Unit :=
  separated (next "|") "," do
    let _ ← annotations nested
    let _ ← nested.pattern
    if ← accept ":" then
      let _ ← nested.type .whole

/-- A function without a name. -/
def closure (setting : Setting) : Reader Unit := do
  let _ ← optionalBinder nested
  let _ ← accept "const"
  let _ ← accept "static"
  let _ ← accept "async"
  let _ ← accept "move"
  expect "|"
  closureParameters nested
  expect "|"
  if (← result nested .whole).isSome then block nested
  else
    let _ ← nested.expression setting

/-- Whether a closure begins here, which is not one that was already found to be a block. -/
def closureFollows (tokens : List Token) : Bool :=
  let behind := second tokens
  beginsAny tokens ["|", "move", "static"] ||
    begins tokens "for" && begins behind "<" &&
      (begins (third tokens) .lifetime || begins (third tokens) ">") ||
    begins tokens "const" && !begins behind (.group .brace) ||
    begins tokens "async" && (begins behind "|" || begins behind "move")

/-- A form that is built into the language: its name and its arguments. -/
def builtIn : Reader Unit := do
  expect "builtin"
  expect "#"
  identifier
  within .parenthesis remaining

/-- A field of a value that is written with its fields, which may be set to its own name. -/
def fieldValue : Reader Unit := do
  let _ ← annotations nested
  let named ← member
  if !named || (← next ":") then
    expect ":"
    anyExpression nested

/-- The fields of a value, and behind them the value that the other fields come from. -/
def fieldValues : Reader Unit :=
  iterate do
    if ← atEnd then return false
    if ← accept ".." then
      unless ← atEnd do anyExpression nested
      return false
    fieldValue nested
    if ← atEnd then return false
    expect ","
    return true

/-- An operand that begins with a path: the path alone, a macro, or a value with its fields. -/
def pathOperand (setting : Setting) : Reader Shape := do
  let path ← path nested .elsewhere
  match ← invocation path with
  | some delimiter => return .invocation (delimiter = .brace)
  | none =>
    if setting = .free && (← next (.group .brace)) then
      within .brace (fieldValues nested)
      return .other
    else return if path.qualified then .other else .path

/-- The elements of an array, or one element and the length. -/
def arrayElements : Reader Unit := do
  if ← atEnd then return
  anyExpression nested
  if (← atEnd) || (← next ",") then
    iterate do
      if ← atEnd then return false
      expect ","
      if ← atEnd then return false
      anyExpression nested
      return true
  else if ← accept ";" then anyExpression nested
  else refuse [",", ";"]

/-- Whether an expression can begin here. -/
def expressionFollows (tokens : List Token) : Bool :=
  begins tokens .anyWord && !begins tokens "as" ||
    beginsAny tokens [.group .parenthesis, .group .bracket, .group .brace, .literal, "..", "::",
      .lifetime, "#"] ||
    beginsOnly tokens "!" ["!="] || beginsOnly tokens "-" ["-=", "->"] ||
    beginsOnly tokens "*" ["*="] || beginsOnly tokens "|" ["|="] ||
    beginsOnly tokens "&" ["&="] || beginsOnly tokens "<" ["<=", "<<="]

/-- The operand of a jump, if it has one. -/
def jumpOperand : Reader Unit := do
  if expressionFollows (← ahead) then anyExpression nested

/-- A jump out of a loop or block, which may be named by its label. -/
def breaking (setting : Setting) : Reader Unit := do
  expect "break"
  let tokens ← ahead
  if begins tokens .lifetime && begins (second tokens) ":" then
    anyExpression nested
    fail (.flawed .labelledOperand)
  let _ ← accept .lifetime
  unless setting = .condition && (← next (.group .brace)) do jumpOperand nested

/-- What follows the point of an access. -/
def access : Reader Unit := do
  unless ← indices do return
  if ← accept "await" then return
  let named ← member
  if named then
    let withArguments ← accept "::"
    if withArguments then
      let _ ← angleArguments nested
    if withArguments || (← next (.group .parenthesis)) then
      within .parenthesis (listed (anyExpression nested))

/-- The calls and accesses behind an operand. A range has none. -/
def accesses (operand : Shape) : Reader Shape :=
  loop (fun shape => do
    let tokens ← ahead
    if begins tokens (.group .parenthesis) then
      within .parenthesis (listed (anyExpression nested))
      return (.other, true)
    else if beginsOnly tokens "." [".."] && shape != .range then
      expect "."
      access nested
      return (.other, true)
    else if begins tokens (.group .bracket) then
      within .bracket (anyExpression nested)
      return (.other, true)
    else if begins tokens "?" && shape != .range then
      expect "?"
      return (.other, true)
    else return (shape, false)) operand

end EnumNames.Declaration.Grammar
