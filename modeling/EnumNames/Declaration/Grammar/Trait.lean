import EnumNames.Declaration.Grammar.Operand
import EnumNames.Declaration.Grammar.Fields
/-!
# Traits and implementations

The definitions that hold functions, constants and types of their own: traits, implementations of
them, and blocks of foreign definitions.
-/
namespace EnumNames.Declaration.Grammar

open Reader

variable (nested : Nested)

/-- A definition that a macro stands for. Behind a group without braces follows a semicolon. -/
def macroDefinition : Reader Unit := do
  namePath
  expect "!"
  unless (← anyGroup) = .brace do expect ";"

/-- The signs that a macro can begin with in place of a definition. -/
def macroSigns : List Sign := [.identifier, "self", "super", "crate", "::"]

/-- The name of a constant, which may be left open. -/
def constantName : Reader Unit := do
  unless ← nextOf [.identifier, "_"] do refuse [.identifier, "_"]
  expect .anyWord

/-- A constant behind its keyword. -/
def constantDefinition : Reader Unit := do
  constantName
  let _ ← generics nested
  expect ":"
  let _ ← nested.type .whole
  if ← accept "=" then anyExpression nested
  let _ ← conditions nested
  expect ";"

/-- Where the conditions of the definition of a type stand. -/
inductive ConditionPlace where
  | beforeType
  | behindType
  | anywhere
deriving DecidableEq, Repr

/-- The definition of another name for a type, or of a type that is defined elsewhere. -/
def typeDefinition (place : ConditionPlace) : Reader Unit := do
  expect "type"
  identifier
  let _ ← generics nested
  if ← accept ":" then
    separated (nextOf ["where", "=", ";"]) "+" do
      let _ ← bound nested false true
  let conditioned ← if place = .behindType then pure false else conditions nested
  if ← accept "=" then
    let _ ← nested.type .whole
  unless place = .beforeType || conditioned do
    let _ ← conditions nested
  expect ";"

/-- A function in a trait, which can be without a body. -/
def traitFunction : Reader Unit := do
  signature nested false
  if ← next (.group .brace) then annotatedBlock nested
  else unless ← accept ";" do refuse [.group .brace, ";"]

/-- A macro in place of a part, in front of which nothing stands. The other parts that could stand
here begin with these signs. -/
def macroPart (marked : Bool) (others : List Sign) : Reader Unit := do
  let signs := if marked then [] else macroSigns
  unless ← nextOf signs do refuse (others ++ signs)
  macroDefinition

/-- A part of a trait. -/
def traitPart : Reader Unit := do
  let _ ← annotations nested
  let isVisible ← visibility
  let hasDefault ← accept "default"
  let tokens ← ahead
  if signatureFollows false tokens then traitFunction nested
  else if ← accept "const" then
    if ← nextOf [.identifier, "_"] then constantDefinition nested
    else if ← nextOf ["async", "unsafe", "extern", "fn"] then traitFunction nested
    else refuse [.identifier, "_", "async", "unsafe", "extern", "fn"]
  else if begins tokens "type" then typeDefinition nested .behindType
  else macroPart (isVisible || hasDefault) ["fn", "const", "type"]

/-- A part of an implementation. A function in it can be without a body. -/
def implementationPart : Reader Unit := do
  let _ ← annotations nested
  let isVisible ← visibility
  let tokens ← ahead
  let hasDefault := begins tokens "default" && !begins (second tokens) "!"
  if hasDefault then expect "default"
  let tokens ← ahead
  if signatureFollows false tokens then
    signature nested false
    unless ← accept ";" do annotatedBlock nested
  else if ← accept "const" then constantDefinition nested
  else if begins tokens "type" then typeDefinition nested .behindType
  else
    macroPart (isVisible || hasDefault)
      (if hasDefault then ["fn", "const", "type"] else ["default", "fn", "const", "type"])

/-- A static value. Its type can be left out where it does not have to be foreign. -/
def staticDefinition (foreign : Bool) : Reader Unit := do
  expect "static"
  let _ ← accept "mut"
  identifier
  let untyped ← next "="
  if foreign || !untyped then
    expect ":"
    let _ ← nested.type .whole
  if ← accept "=" then anyExpression nested
  expect ";"

/-- A part of a block of foreign definitions. -/
def foreignPart : Reader Unit := do
  let _ ← annotations nested
  let isVisible ← visibility
  let tokens ← ahead
  if signatureFollows true tokens then
    signature nested true
    if ← next (.group .brace) then annotatedBlock nested else expect ";"
  else if begins tokens "static" ||
      (begins tokens "unsafe" || begins tokens "safe") && begins (second tokens) "static" then
    unless begins tokens "static" do expect .anyWord
    staticDefinition nested true
  else if begins tokens "type" then typeDefinition nested .anywhere
  else macroPart isVisible ["fn", "static", "type"]

/-- A block of foreign definitions. -/
def foreignBlock : Reader Unit :=
  within .brace do
    innerAnnotations nested
    all (foreignPart nested)

/-- What follows the head of a trait: the traits that it extends, and its parts. -/
def traitBody : Reader Unit := do
  if ← accept ":" then
    separated (nextOf ["where", .group .brace]) "+" do
      let _ ← bound nested false true
  let _ ← conditions nested
  within .brace do
    innerAnnotations nested
    all (traitPart nested)

/-- A trait, or another name for a sum of bounds. -/
def traitDefinition (aliased : Bool) : Reader Unit := do
  expect "trait"
  identifier
  let _ ← generics nested
  if !aliased || (← nextOf [.group .brace, ":", "where"]) then traitBody nested
  else
    unless ← accept "=" do refuse [.group .brace, ":", "where", "="]
    separated (nextOf ["where", ";"]) "+" do
      let _ ← bound nested false false
    let _ ← conditions nested
    expect ";"

/-- An implementation, of a trait or of what a type has of its own. -/
def implementation : Reader Unit := do
  let _ ← accept "default"
  let _ ← accept "unsafe"
  expect "impl"
  if parametersFollow (← ahead) then
    let _ ← generics nested
  let tokens ← ahead
  if begins tokens "?" && begins (second tokens) "const" then expect "?"
  let _ ← accept "const"
  let tokens ← ahead
  let negative := begins tokens "!" && !begins (second tokens) (.group .brace)
  if negative then expect "!"
  let _ ← nested.type .whole
  if ← accept "for" then
    let _ ← nested.type .whole
  else if negative then fail (.flawed .negativeImplementation)
  let _ ← conditions nested
  within .brace do
    innerAnnotations nested
    all (implementationPart nested)

end EnumNames.Declaration.Grammar
