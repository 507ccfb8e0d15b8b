import EnumNames.Declaration.Grammar.Definition
import EnumNames.Declaration.Grammar.Expression
/-!
# Statements

The statements of a block: definitions, names that are bound to values, and expressions. An
expression is followed by a semicolon, unless it ends with a block or is the last statement.
-/
namespace EnumNames.Declaration.Grammar

open Reader

variable (nested : Nested)

/-- A pattern that is bound to a value, and a block for when it does not describe the value. The
block needs a value in front of it that does not end with a block itself. -/
def localBinding : Reader Unit := do
  expect "let"
  let _ ← nested.pattern
  if ← accept ":" then
    let _ ← nested.type .whole
  if ← accept "=" then
    let braced ← endsWithBrace (anyExpression nested)
    unless braced do
      if ← accept "else" then block nested
  expect ";"

/-- Whether a constant or a closure that is marked like one begins here. -/
def constantFollows (tokens : List Token) : Bool :=
  let behind := second tokens
  begins tokens "const" &&
    !(beginsAny behind [.group .brace, "static", "move", "|"] ||
      begins behind "async" &&
        !beginsAny (third tokens) ["unsafe", "extern", "fn"])

/-- Whether a definition begins here, macros apart. -/
def definitionFollows (tokens : List Token) : Bool :=
  let behind := second tokens
  beginsAny tokens ["pub", "extern", "use", "fn", "mod", "type", "struct", "enum", "trait", "impl",
      "macro"] ||
    begins tokens "crate" && !begins behind "::" ||
    begins tokens "static" && (begins behind "mut" || begins behind .identifier) ||
    constantFollows tokens ||
    begins tokens "unsafe" && !begins behind (.group .brace) ||
    begins tokens "async" && beginsAny behind ["unsafe", "extern", "fn"] ||
    begins tokens "union" && begins behind .identifier ||
    begins tokens "auto" && begins behind "trait" ||
    begins tokens "default" && (begins behind "unsafe" || begins behind "impl")

/-- What an invocation of a macro at the start of a statement is. -/
inductive MacroForm where
  | definition
  | statement
  | expression
deriving DecidableEq, Repr

/-- The form of an invocation behind the name of a macro. -/
def macroForm (behindName : List Token) : MacroForm :=
  let argument := second behindName
  let behind := third behindName
  if !begins behindName "!" then .expression
  else if begins argument .identifier || begins argument "try" then .definition
  else if begins argument (.group .brace) && !beginsOnly behind "." [".."] &&
      !begins behind "?" then .statement
  else .expression

/-- The form of a statement that may begin with the name of a macro. -/
def statementForm : Reader MacroForm := do
  let tokens ← ahead
  let behindName ← lookPast do
    let _ ← attempt namePath
  return if behindName.length < tokens.length then macroForm behindName else .expression

/-- A statement, and whether it has to be the last one. -/
def statement : Reader Bool := do
  let _ ← annotations nested
  let tokens ← ahead
  let form ← statementForm
  if form = .statement then
    namePath
    expect "!"
    let _ ← anyGroup
    let _ ← accept ";"
    return false
  else if begins tokens "let" then
    localBinding nested
    return false
  else if form = .definition || definitionFollows tokens then
    plainDefinition nested
    return false
  else
    let shape ← leading nested
    let ended ← accept ";"
    return !ended && shape != .block && shape != .invocation true

/-- The statements of a block. -/
def statements : Reader Unit :=
  iterate do
    if ← accept ";" then return true
    if ← atEnd then return false
    let last ← statement nested
    if last && !(← atEnd) then fail (.flawed .unseparatedStatement)
    return true

end EnumNames.Declaration.Grammar
