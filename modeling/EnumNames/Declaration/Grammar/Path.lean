import EnumNames.Declaration.Grammar.Annotations
/-!
# Paths

A path is a sequence of segments, each a name that may have arguments. In a type the arguments
follow the name directly, and elsewhere only behind a separator. A path may also begin with a type
between angle brackets, of which its segments are members.
-/
namespace EnumNames.Declaration.Grammar

open Reader

/-- Where a path stands, which decides how its arguments are written. -/
inductive PathPlace where
  | inType
  | elsewhere
deriving DecidableEq, Repr

/-- The arguments of a segment. -/
inductive Arguments where
  | absent
  | empty
  | present
deriving DecidableEq, Repr

/-- What a path is, seen from outside. -/
structure PathShape where
  /-- Whether the path begins with a type between angle brackets. -/
  qualified : Bool := false
  /-- Whether the path begins with a separator. -/
  leading : Bool := false
  /-- Whether the path has several segments. -/
  several : Bool := false
  /-- Whether no segment has arguments, not even an empty list of them. -/
  plain : Bool := true
  /-- The arguments of the last segment. -/
  last : Arguments := .absent
deriving DecidableEq, Repr

namespace PathShape

/-- The path with another segment at its end. -/
def extend (path : PathShape) (arguments : Arguments) : PathShape :=
  { path with several := true, plain := path.plain && arguments == .absent, last := arguments }

/-- Whether the path is a segment alone. -/
def isSegment (path : PathShape) : Bool := !path.qualified && !path.leading && !path.several

/-- Whether the path can be the name of a macro. -/
def isName (path : PathShape) : Bool := !path.qualified && path.plain

end PathShape

variable (nested : Nested)

/-- An argument that is a value: a literal, a name, or a block. -/
def constant : Reader Unit := do
  if ← next .literal then expect .literal
  else if ← next .identifier then expect .identifier
  else if ← next (.group .brace) then
    within .brace do
      innerAnnotations nested
      nested.statements
  else fail (.unexpected (← atEnd))

/-- An argument of a segment: a lifetime, a value, a type, or the type, the value or the bounds of
an associated name. -/
def argument : Reader Unit := do
  let tokens ← ahead
  if begins tokens .lifetime && !begins (second tokens) "+" then expect .lifetime
  else if begins tokens .literal || begins tokens (.group .brace) then constant nested
  else
    let shape ← nested.type .whole
    if shape = .name then
      if ← accept "=" then
        if ← nextOf [.literal, .group .brace] then constant nested
        else
          let _ ← nested.type .whole
      else if ← accept ":" then
        chained (nextOf [",", ">"]) "+" do
          let _ ← nested.bound false true

/-- Arguments between angle brackets. -/
def angleArguments : Reader Arguments := do
  expect "<"
  let empty ← next ">"
  separated (next ">") "," (argument nested)
  expect ">"
  return if empty then .empty else .present

/-- A segment of a path, given as its arguments. The words that name a place have none. -/
def segment (place : PathPlace) : Reader Arguments := do
  if ← nextOf ["super", "self", "crate", "try"] then
    expect .anyWord
    return .absent
  unless ← accept "Self" do identifier
  let tokens ← ahead
  if place = .inType && beginsOnly tokens "<" ["<=", "<<="] then angleArguments nested
  else if begins tokens "::" && begins (third tokens) "<" then
    expect "::"
    angleArguments nested
  else return .absent

/-- The further segments of a path, up to a separator in front of a group. -/
def furtherSegments (place : PathPlace) (path : PathShape) : Reader PathShape :=
  loop (fun path => do
    let tokens ← ahead
    if begins tokens "::" && !begins (third tokens) (.group .parenthesis) then
      expect "::"
      return (path.extend (← segment nested place), true)
    else return (path, false)) path

/-- A path that does not begin with a type between angle brackets. -/
def plainPath (place : PathPlace) : Reader PathShape := do
  let leading ← accept "::"
  let arguments ← segment nested place
  furtherSegments nested place
    { leading, plain := arguments == .absent, last := arguments }

/-- The members that follow the type between angle brackets at the start of a path. -/
def members (place : PathPlace) : Reader PathShape :=
  loop (fun path => do
    let arguments ← segment nested place
    return (path.extend arguments, ← accept "::")) { qualified := true }

/-- A path. -/
def path (place : PathPlace) : Reader PathShape := do
  if ← accept "<" then
    let _ ← nested.type .whole
    if ← accept "as" then
      let _ ← plainPath nested .inType
    expect ">"
    expect "::"
    members nested place
  else plainPath nested place

/-- What follows an arrow, if there is one: the type of a result. -/
def result (place : Place) : Reader (Option TypeShape) := do
  if ← accept "->" then
    let shape ← nested.type place
    return some shape
  else return none

/-- Arguments in parentheses and their result. Segments may follow if the result is missing or
stands in parentheses itself. -/
def callArguments : Reader Bool := do
  let _ ← accept "::"
  within .parenthesis (listed do
    let _ ← nested.type .whole)
  match ← result nested .single with
  | none | some .parenthesized => return true
  | some _ => return false

/-- Whether arguments in parentheses follow a path here. -/
def callFollows (path : PathShape) : Reader Bool := do
  let tokens ← ahead
  return path.last != .present &&
    (begins tokens (.group .parenthesis) ||
      begins tokens "::" && begins (third tokens) (.group .parenthesis))

/-- The arguments in parentheses behind a path, and the segments that follow them. -/
def calls (path : PathShape) : Reader PathShape :=
  loop (fun path => do
    unless ← callFollows path do return (path, false)
    let goesOn ← callArguments nested
    let path := { path with plain := false, last := .present, several := true }
    if goesOn then return (← furtherSegments nested .inType path, true)
    else return (path, false)) path

/-- The group behind the exclamation mark of a macro, if these follow a path here. -/
def invocation (path : PathShape) : Reader (Option Delimiter) := do
  let tokens ← ahead
  if path.isName && beginsOnly tokens "!" ["!="] then
    expect "!"
    let delimiter ← anyGroup
    return some delimiter
  else return none

end EnumNames.Declaration.Grammar
