import EnumNames.Declaration.Grammar.Path
/-!
# Bounds

A bound is a lifetime, or a trait with what may stand in front of it. Some places allow bounds that
hold of constants alone, and some the captures of a hidden type.
-/
namespace EnumNames.Declaration.Grammar

open Reader

variable (nested : Nested)

/-- The lifetimes that a part binds. -/
def binder : Reader Unit := do
  expect "for"
  expect "<"
  separated (next ">") "," do
    let _ ← annotations nested
    expect .lifetime
  expect ">"

/-- The lifetimes that a part binds, if there are any, and whether there are. -/
def optionalBinder : Reader Bool := do
  let bound ← next "for"
  if bound then binder nested
  return bound

/-- The captures of a hidden type. -/
def captures : Reader Unit := do
  expect "use"
  expect "<"
  iterate do
    if ← next ">" then return false
    if ← next "Self" then expect .anyWord
    else if ← nextOf [.lifetime, .identifier] then skip 1
    else refuse [.lifetime, .identifier, ">"]
    if ← accept "," then return true
    unless ← next ">" do refuse [",", ">"]
    return false
  expect ">"

/-- What says of a trait that it holds of constants, which not every place allows. -/
def constantMark (constants : Bool) : Reader Unit := do
  let bracketed ← next (.group .bracket)
  if bracketed then within .bracket (expect "const")
  let marked ← if bracketed then pure true else accept "const"
  if marked && !constants then fail (.flawed (.misplacedConstant bracketed))

/-- A trait with what may stand in front of it and the arguments behind it. -/
def traitBound (constants : Bool) : Reader Unit := do
  let boundBefore ← optionalBinder nested
  constantMark constants
  let relaxed ← accept "?"
  let boundBehind ← if relaxed && !boundBefore then optionalBinder nested else pure false
  let path ← plainPath nested .inType
  if ← callFollows path then
    let _ ← callArguments nested
  if relaxed && (boundBefore || boundBehind) then fail (.flawed .relaxedBinder)

/-- A bound. -/
def bound (allowCaptures constants : Bool) : Reader BoundShape := do
  if ← accept .lifetime then return .lifetime
  else if ← next "use" then
    captures
    unless allowCaptures do fail (.flawed .misplacedCaptures)
    return .captures
  else
    if ← next (.group .parenthesis) then within .parenthesis (traitBound nested constants)
    else traitBound nested constants
    return .trait

/-- The signs that a further bound can begin with. -/
def boundSigns : List Sign := [.anyWord, "::", "?", .lifetime, .group .parenthesis]

/-- A sum of bounds, or the first alone where sums are not allowed. It says whether one of them is
a trait. -/
def bounds (sums allowCaptures constants : Bool) : Reader Bool :=
  loop (fun trait => do
    let shape ← bound nested allowCaptures constants
    let trait := trait || shape == .trait
    unless sums do return (trait, false)
    unless ← accept "+" do return (trait, false)
    let signs := if constants then boundSigns ++ [Sign.group .bracket, "const"] else boundSigns
    return (trait, ← nextOf signs)) false

/-- The traits of an object type. -/
def objectBounds (sums : Bool) : Reader Unit := do
  unless ← bounds nested sums false false do fail (.flawed .noTraitOfObject)

end EnumNames.Declaration.Grammar
