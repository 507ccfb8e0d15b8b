import EnumNames.Declaration.Grammar.Trait
/-!
# Definitions

The definitions that can stand among the statements of a block.
-/
namespace EnumNames.Declaration.Grammar

open Reader

variable (nested : Nested)

/-- Names that are imported: a name with what is under it, all names, or a group of these. -/
def imports (rooted : Bool) : Reader Unit := do
  if ← nextOf [.identifier, "self", "super", "crate", "try"] then
    expect .anyWord
    if ← accept "::" then nested.imports false
    else if ← accept "as" then
      unless ← accept .identifier do
        unless ← accept "_" do missing .importedName
  else if ← accept "*" then return
  else if ← next (.group .brace) then
    within .brace (listed do
      let atRoot ← if rooted then accept "::" else pure false
      nested.imports (rooted && !atRoot))
  else refuse [.identifier, "self", "super", "crate", "try", "*", .group .brace]

/-- The import of names. -/
def importDefinition : Reader Unit := do
  expect "use"
  let atRoot ← accept "::"
  imports nested !atRoot
  expect ";"

/-- The import of a whole library. -/
def libraryImport : Reader Unit := do
  expect "crate"
  unless ← accept "self" do identifier
  if ← accept "as" then
    unless ← accept "_" do identifier
  expect ";"

/-- A definition behind the word for what is foreign. A block of foreign definitions has no
visibility of its own. -/
def foreignDefinition (isVisible : Bool) : Reader Unit := do
  expect "extern"
  if ← next "crate" then libraryImport
  else
    let named ← accept .text
    unless ← next (.group .brace) do
      refuse (if named then [.group .brace] else ["crate", .group .brace, .text])
    if isVisible then fail (.expected (.signs ["extern"]) false)
    foreignBlock nested

/-- A group of definitions with a name. -/
def groupDefinition : Reader Unit := do
  expect "mod"
  unless ← accept "try" do identifier
  if ← next (.group .brace) then
    within .brace do
      innerAnnotations nested
      all nested.definition
  else unless ← accept ";" do refuse [";", .group .brace]

/-- A definition behind the word for what is unchecked. -/
def uncheckedDefinition (isVisible : Bool) : Reader Unit := do
  expect "unsafe"
  let tokens ← ahead
  if begins tokens "trait" || begins tokens "auto" && begins (second tokens) "trait" then
    let _ ← accept "auto"
    traitDefinition nested false
  else if begins tokens "impl" then implementation nested
  else if begins tokens "extern" then
    if isVisible then fail (.expected (.signs ["extern"]) false)
    convention
    foreignBlock nested
  else if begins tokens "mod" then groupDefinition nested
  else refuse ["trait", "auto", "impl", "extern", "mod"]

/-- A definition of a macro by one rule or several. -/
def macroRules : Reader Unit := do
  expect "macro"
  identifier
  let withParameters ← next (.group .parenthesis)
  if withParameters then within .parenthesis remaining
  unless ← next (.group .brace) do
    refuse (if withParameters then [.group .brace] else [.group .parenthesis, .group .brace])
  within .brace remaining

/-- An invocation of a macro in place of a definition, which may give it a name. -/
def namedMacro : Reader Unit := do
  namePath
  expect "!"
  unless ← accept "try" do
    let _ ← accept .identifier
  unless (← anyGroup) = .brace do expect ";"

/-- The signs that a definition can begin with. -/
def definitionSigns : List Sign :=
  ["fn", "extern", "use", "static", "const", "unsafe", "mod", "type", "struct", "enum", "union",
    "trait", "auto", "impl", "default", "macro"]

/-- A definition behind its annotations. -/
def plainDefinition : Reader Unit := do
  let isVisible ← visibility
  let tokens ← ahead
  let behind := second tokens
  if signatureFollows false tokens then
    signature nested false
    unless ← accept ";" do annotatedBlock nested
  else if begins tokens "extern" then foreignDefinition nested isVisible
  else if begins tokens "use" then importDefinition nested
  else if begins tokens "static" then staticDefinition nested false
  else if ← accept "const" then constantDefinition nested
  else if begins tokens "unsafe" then uncheckedDefinition nested isVisible
  else if begins tokens "mod" then groupDefinition nested
  else if begins tokens "type" then typeDefinition nested .beforeType
  else if begins tokens "struct" then record nested "struct" (recordBody nested)
  else if begins tokens "enum" then record nested "enum" (enumerationBody nested)
  else if begins tokens "union" && begins behind .identifier then
    record nested "union" do
      let _ ← conditions nested
      fields nested
  else if begins tokens "trait" then traitDefinition nested true
  else if begins tokens "auto" && begins behind "trait" then
    expect "auto"
    traitDefinition nested false
  else if begins tokens "impl" || begins tokens "default" && !begins behind "!" then
    implementation nested
  else if begins tokens "macro" then macroRules
  else
    let signs := if isVisible then [] else macroSigns
    unless ← nextOf signs do refuse (definitionSigns ++ signs)
    namedMacro

/-- A definition. -/
def definition : Reader Unit := do
  let _ ← annotations nested
  plainDefinition nested

end EnumNames.Declaration.Grammar
