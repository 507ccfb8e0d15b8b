import EnumNames.Declaration.Grammar.Pattern
/-!
# Blocks

The blocks of an expression, and the forms that end with one: conditions, loops and matches.
-/
namespace EnumNames.Declaration.Grammar

open Reader

variable (nested : Nested)

/-- A block. -/
def block : Reader Unit := within .brace nested.statements

/-- A block that can begin with annotations of its own. -/
def annotatedBlock : Reader Unit :=
  within .brace do
    innerAnnotations nested
    nested.statements

/-- Conditions with their blocks, and the block for when none of them holds. -/
def conditional : Reader Unit :=
  iterate do
    expect "if"
    let _ ← nested.expression .condition
    block nested
    unless ← accept "else" do return false
    if ← next "if" then return true
    unless ← next (.group .brace) do refuse ["if", .group .brace]
    block nested
    return false

/-- A block that is repeated as long as a condition holds. -/
def whileLoop : Reader Unit := do
  expect "while"
  let _ ← nested.expression .condition
  annotatedBlock nested

/-- A block that is repeated for each element of a sequence. -/
def forLoop : Reader Unit := do
  expect "for"
  let _ ← alternatives nested
  expect "in"
  let _ ← nested.expression .condition
  annotatedBlock nested

/-- A block that is repeated without a condition. -/
def endlessLoop : Reader Unit := do
  expect "loop"
  annotatedBlock nested

/-- A case of a match. A comma follows it, unless it ends with a block or is the last one. -/
def matchArm : Reader Unit := do
  let _ ← annotations nested
  let _ ← alternatives nested
  if ← accept "if" then
    let _ ← nested.expression .free
  expect "=>"
  let shape ← nested.leading
  if shape = .block || (← atEnd) then
    let _ ← accept ","
  else expect ","

/-- A value and the cases that it is compared with. -/
def matching : Reader Unit := do
  expect "match"
  let _ ← nested.expression .condition
  within .brace do
    innerAnnotations nested
    all (matchArm nested)

/-- A label and the loop or block behind it. -/
def labelled : Reader Unit := do
  expect .lifetime
  expect ":"
  if ← next "while" then whileLoop nested
  else if ← next "for" then forLoop nested
  else if ← next "loop" then endlessLoop nested
  else if ← next (.group .brace) then annotatedBlock nested
  else missing .labelled

/-- A word in front of a block that can begin with annotations of its own. -/
def markedBlock (keyword : String) : Reader Unit := do
  expect keyword
  annotatedBlock nested

end EnumNames.Declaration.Grammar
