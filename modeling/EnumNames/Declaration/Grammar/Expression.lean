import EnumNames.Declaration.Grammar.Operation
/-!
# Expressions

An expression is an operand and what goes on with it. At the start of a statement a block ends the
expression, unless an access follows it.
-/
namespace EnumNames.Declaration.Grammar

open Reader

variable (nested : Nested)

/-- A pattern and the value that it is compared with. -/
def binding (setting : Setting) : Reader Unit := do
  expect "let"
  let _ ← alternatives nested
  expect "="
  let first ← nested.operand setting
  let _ ← operations nested setting .comparison first

/-- Whether a form that ends with a block begins here. -/
def blockFollows (tokens : List Token) : Bool :=
  beginsAny tokens [.group .brace, "if", "while", "loop", "match", "unsafe", .lifetime] ||
    begins tokens "for" && !closureFollows tokens ||
    (begins tokens "try" || begins tokens "const") && begins (second tokens) (.group .brace)

/-- A form that ends with a block. -/
def blockForm : Reader Unit := do
  if ← next "if" then conditional nested
  else if ← next "while" then whileLoop nested
  else if ← next "for" then forLoop nested
  else if ← next "loop" then endlessLoop nested
  else if ← next "match" then matching nested
  else if ← next "unsafe" then markedBlock nested "unsafe"
  else if ← next "const" then markedBlock nested "const"
  else if ← next .lifetime then labelled nested
  else
    let _ ← accept "try"
    annotatedBlock nested

/-- Whether a block begins here that is evaluated later. -/
def waitingBlockFollows (tokens : List Token) : Bool :=
  begins tokens "async" &&
    (begins (second tokens) (.group .brace) ||
      begins (second tokens) "move" && begins (third tokens) (.group .brace))

/-- Whether an operand that begins here begins with a path. -/
def pathFollows (tokens : List Token) : Bool :=
  beginsAny tokens [.identifier, "::", "<", "self", "Self", "super", "crate"] ||
    begins tokens "try" && (begins (second tokens) "!" || begins (second tokens) "::")

/-- An operand without the operators in front of it and without what follows it. -/
def atom (setting : Setting) : Reader Shape := do
  let tokens ← ahead
  if ← accept .literal then return .other
  else if waitingBlockFollows tokens then
    expect "async"
    let _ ← accept "move"
    block nested
    return .other
  else if blockFollows tokens then
    blockForm nested
    return .block
  else if closureFollows tokens then
    closure nested setting
    return .other
  else if begins tokens "builtin" && begins (second tokens) "#" then
    builtIn
    return .other
  else if pathFollows tokens then pathOperand nested setting
  else if begins tokens (.group .parenthesis) then
    within .parenthesis (listed (anyExpression nested))
    return .other
  else if begins tokens (.group .bracket) then
    within .bracket (arrayElements nested)
    return .other
  else if begins tokens "break" then
    breaking nested setting
    return .other
  else if ← accept "continue" then
    let _ ← accept .lifetime
    return .other
  else if ← accept "return" then
    jumpOperand nested
    return .other
  else if ← accept "yield" then
    jumpOperand nested
    return .other
  else if ← accept "become" then
    anyExpression nested
    return .other
  else if begins tokens "let" then
    binding nested setting
    return .other
  else if begins tokens ".." then
    rangeTail nested setting
    return .range
  else if ← accept "_" then return .other
  else missing .expression

/-- An operand with the operators in front of it and what follows it. -/
def operand (setting : Setting) : Reader Shape := do
  let annotated ← annotations nested
  let tokens ← ahead
  if ← accept "&" then
    let rest ← ahead
    let raw := begins rest "raw" && (begins (second rest) "mut" || begins (second rest) "const")
    if raw then expect "raw"
    let mutable ← accept "mut"
    if raw && !mutable then expect "const"
    let _ ← nested.operand setting
    return .other
  else if beginsAny tokens ["*", "!", "-"] then
    skip 1
    let _ ← nested.operand setting
    return if begins tokens "-" then .negation else .other
  else
    let shape ← accesses nested (← atom nested setting)
    if annotated && shape == .range then fail (.flawed .annotatedRange)
    return shape

/-- The right side of an operator of a level: an operand and what binds more tightly. Assignments
are right sides of assignments. -/
def right (setting : Setting) (level : Level) : Reader Shape := do
  let first ← operand nested setting
  loop (fun shape => do
    let here := levelHere (← ahead)
    if here.rank > level.rank || here == .assignment && level == .assignment then
      return (← operations nested setting here shape, true)
    else return (shape, false)) first

/-- An expression. -/
def expression (setting : Setting) : Reader Shape := do
  let first ← operand nested setting
  operations nested setting .jump first

/-- An expression that ends behind a block in front of it, unless an access follows. -/
def leading : Reader Shape := do
  let _ ← annotations nested
  if blockFollows (← ahead) then
    blockForm nested
    let tokens ← ahead
    if beginsOnly tokens "." [".."] || begins tokens "?" then
      let first ← accesses nested .block
      operations nested .free .jump first
    else return .block
  else expression nested .free

end EnumNames.Declaration.Grammar
