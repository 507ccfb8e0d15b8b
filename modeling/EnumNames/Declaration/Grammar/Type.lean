import EnumNames.Declaration.Grammar.Bound
/-!
# Types

The types that can stand in a declaration. A type is read as far as its place allows.
-/
namespace EnumNames.Declaration.Grammar

open Reader

variable (nested : Nested)

/-- The further bounds of a sum whose first bound has been read. -/
def furtherBounds : Reader Unit :=
  iterate do
    unless ← accept "+" do return false
    let _ ← bound nested false false
    return true

/-- The types in parentheses behind the first one, each after a comma. -/
def furtherTypes : Reader Unit :=
  iterate do
    if ← atEnd then return false
    expect ","
    if ← atEnd then return false
    let _ ← nested.type .whole
    return true

/-- What stands in the parentheses of a type. -/
inductive Enclosed where
  | tuple
  | relaxed
  | lifetimes
  | single (shape : TypeShape)
deriving DecidableEq, Repr

/-- The inside of the parentheses of a type. -/
def enclosed : Reader Enclosed := do
  if ← atEnd then return .tuple
  if ← next .lifetime then
    objectBounds nested true
    return .lifetimes
  if ← next "?" then
    traitBound nested false
    return .relaxed
  let shape ← nested.type .whole
  if ← next "," then
    furtherTypes nested
    return .tuple
  return .single shape

/-- A type that begins with parentheses. -/
def enclosedType (place : Place) : Reader TypeShape := do
  match ← within .parenthesis (enclosed nested) with
  | .tuple => return .other
  | .lifetimes => return .parenthesized
  | .relaxed =>
    let several ← next "+"
    furtherBounds nested
    return if several then .other else .bound
  | .single shape =>
    let sums := place == .whole && (← next "+")
    if sums && [TypeShape.name, .path, .bound].contains shape then
      furtherBounds nested
      return .other
    else return .parenthesized

/-- The last parameter of a function that takes any further ones. -/
def furtherParameters : Reader Unit := do
  if ← nextOf [.identifier, "_"] then
    expect .anyWord
    expect ":"
  expect "..."
  let _ ← accept ","

/-- A parameter in the type of a function. Its name may be left out, and the first one may be a
receiver. -/
def typeParameter (first : Bool) : Reader Unit := do
  let _ ← annotations nested
  let tokens ← ahead
  let mutable := first && begins tokens "mut" && begins (second tokens) "self"
  if mutable then expect "mut"
  let tokens ← ahead
  let receives := first && begins tokens "self"
  let named := (begins tokens .identifier || begins tokens "_" || receives) &&
    beginsOnly (second tokens) ":" ["::"]
  if named then
    expect .anyWord
    expect ":"
  let tokens ← ahead
  if first && !(named && receives) && begins tokens "mut" && begins (second tokens) "self" then
    expect "mut"
    expect "self"
  else if mutable && !named then expect "self"
  else
    let _ ← nested.type .whole

/-- Whether the last parameter of a function that takes any further ones is next. -/
def furtherParametersFollow (tokens : List Token) : Bool :=
  begins tokens "..." ||
    (begins tokens .identifier || begins tokens "_") && begins (second tokens) ":" &&
      begins (third tokens) "..."

/-- The parameters in the type of a function. -/
def typeParameters : Reader Unit := do
  let _ ← loop (fun first => do
    if ← atEnd then return (first, false)
    let _ ← annotations nested
    if furtherParametersFollow (← ahead) then
      furtherParameters
      return (first, false)
    typeParameter nested first
    if ← atEnd then return (first, false)
    expect ","
    return (false, true)) true

/-- The foreign convention of a function, if it has one. -/
def convention : Reader Unit := do
  if ← accept "extern" then
    let _ ← accept .text

/-- The type of a function. -/
def functionType : Reader Unit := do
  let _ ← optionalBinder nested
  let _ ← accept "unsafe"
  convention
  expect "fn"
  within .parenthesis (typeParameters nested)
  let _ ← result nested .single

/-- Whether another bound follows the plus sign of a sum here. -/
def sumGoesOn : Reader Bool := nextOf boundSigns

/-- A type that begins with a path, behind the lifetimes that it binds if there are any. -/
def pathType (place : Place) (isBound : Bool) : Reader TypeShape := do
  let path ← path nested .inType
  let path ← if place = .conversion then pure path else calls nested path
  if path.qualified then return .other
  if (← invocation path).isSome then return .other
  if isBound || (place == .whole && (← next "+")) then
    let several ← next "+"
    if place = .whole then
      iterate do
        unless ← accept "+" do return false
        unless ← sumGoesOn do return false
        let _ ← bound nested false false
        return true
    return if several && place == .whole then .other else .bound
  if path.isSegment then return .name else return .path

/-- The signs that a type can begin with. -/
def typeSigns : List Sign :=
  ["for", .group .parenthesis, "fn", "unsafe", "extern", .identifier, "::", "<", "dyn",
    .group .bracket, "*", "&", "!", "impl", "_", .lifetime]

/-- The signs that a type can go on with behind the lifetimes that it binds. -/
def boundTypeSigns : List Sign :=
  [.identifier, "fn", "unsafe", "extern", "super", "self", "Self", "crate"]

/-- A type that does not begin with a path and not with parentheses. -/
def otherType (place : Place) : Reader Unit := do
  if ← nextOf ["fn", "unsafe", "extern"] then functionType nested
  else if ← accept "dyn" then
    let _ ← accept "*"
    objectBounds nested (place == .whole)
  else if ← next (.group .bracket) then
    within .bracket do
      let _ ← nested.type .whole
      if ← accept ";" then
        let _ ← nested.expression .free
  else if ← accept "*" then
    unless ← accept "const" do
      unless ← accept "mut" do refuse ["const", "mut"]
    let _ ← nested.type .single
  else if ← accept "&" then
    let _ ← accept .lifetime
    let _ ← accept "mut"
    let _ ← nested.type .single
  else if ← accept "!" then return
  else if ← accept "impl" then
    unless ← bounds nested (place == .whole) true true do fail (.flawed .noTrait)
  else if ← accept "_" then return
  else if ← next .lifetime then objectBounds nested true
  else refuse typeSigns

/-- A type. -/
def type (place : Place) : Reader TypeShape := do
  let isBound ← optionalBinder nested
  if isBound then
    unless ← nextOf boundTypeSigns do refuse boundTypeSigns
  if ← next (.group .parenthesis) then enclosedType nested place
  else if ← nextOf [.identifier, "super", "self", "Self", "crate", "::", "<"] then
    pathType nested place isBound
  else
    otherType nested place
    return .other

end EnumNames.Declaration.Grammar
