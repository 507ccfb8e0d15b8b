import EnumNames.Declaration.Grammar.Function
/-!
# Types with fields

The definitions of records, unions and enumerations, which are made of fields and variants.
-/
namespace EnumNames.Declaration.Grammar

open Reader

variable (nested : Nested)

/-- A field with a name. The type of a field without one can be written in place. -/
def namedField : Reader Unit := do
  let _ ← annotations nested
  let _ ← visibility
  let unnamed ← accept "_"
  unless unnamed do identifier
  expect ":"
  let tokens ← ahead
  if unnamed && (begins tokens "struct" ||
      begins tokens "union" && begins (second tokens) (.group .brace)) then
    expect .anyWord
    nested.fields
  else
    let _ ← nested.type .whole

/-- Fields with names, between braces. -/
def fields : Reader Unit := within .brace (listed (namedField nested))

/-- Fields without names, in parentheses. -/
def positionalFields : Reader Unit :=
  within .parenthesis (listed do
    let _ ← annotations nested
    let _ ← visibility
    let _ ← nested.type .whole)

/-- What follows the head of a record. -/
def recordBody : Reader Unit := do
  let conditioned ← conditions nested
  let head := if conditioned then [] else [Sign.spelled "where", .group .parenthesis]
  if !conditioned && (← next (.group .parenthesis)) then
    positionalFields nested
    let conditioned ← conditions nested
    unless ← accept ";" do
      refuse (if conditioned then [";"] else ["where", ";"])
  else if ← next (.group .brace) then fields nested
  else unless ← accept ";" do refuse (head ++ [Sign.group .brace, ";"])

/-- A variant with its fields and its value. -/
def variant : Reader Unit := do
  let _ ← annotations nested
  let _ ← visibility
  identifier
  if ← next (.group .brace) then fields nested
  else if ← next (.group .parenthesis) then positionalFields nested
  if ← accept "=" then
    let _ ← nested.expression .free

/-- What follows the head of an enumeration. -/
def enumerationBody : Reader Unit := do
  let _ ← conditions nested
  within .brace (listed (variant nested))

/-- A definition of a type with fields or variants. -/
def record (keyword : String) (body : Reader Unit) : Reader Unit := do
  expect keyword
  identifier
  let _ ← generics nested
  body

end EnumNames.Declaration.Grammar
