import EnumNames.Declaration.Grammar.Type
/-!
# Parameters of definitions

The parameters of a definition between angle brackets, and the conditions on them.
-/
namespace EnumNames.Declaration.Grammar

open Reader

variable (nested : Nested)

/-- The default of a parameter, or the end of one, follows here. -/
def endsBounds (signs : List Sign) : Reader Bool := return (← ahead).isEmpty || (← nextOf signs)

/-- A parameter for lifetimes, with the lifetimes that it outlives. -/
def lifetimeParameter : Reader Unit := do
  let _ ← annotations nested
  expect .lifetime
  if ← accept ":" then chained (endsBounds [",", ">"]) "+" (expect .lifetime)

/-- A parameter for types, with its bounds and its default. -/
def typeVariable : Reader Unit := do
  let _ ← annotations nested
  identifier
  if ← accept ":" then
    chained (endsBounds [",", ">", "="]) "+" do
      let _ ← bound nested false true
  if ← accept "=" then
    let _ ← nested.type .whole

/-- A parameter for values, with its type and its default. -/
def constantParameter : Reader Unit := do
  let _ ← annotations nested
  expect "const"
  identifier
  expect ":"
  let _ ← nested.type .whole
  if ← accept "=" then constant nested

/-- A parameter of a definition. -/
def parameter : Reader Unit := do
  let _ ← annotations nested
  if ← next .lifetime then lifetimeParameter nested
  else if ← next .identifier then typeVariable nested
  else if ← next "const" then constantParameter nested
  else if ← accept "_" then return
  else refuse [.lifetime, .identifier, "const"]

/-- The parameters of a definition, if it has any, and whether their list is written. -/
def generics : Reader Bool := do
  unless ← accept "<" do return false
  separated (next ">") "," (parameter nested)
  expect ">"
  return true

/-- Whether angle brackets here are parameters, and not the type that a path begins with. -/
def parametersFollow (tokens : List Token) : Bool :=
  let inner := second tokens
  let behind := third tokens
  begins tokens "<" &&
    (begins inner ">" || begins inner "#" || begins inner "const" ||
      (begins inner .lifetime || begins inner .identifier) &&
        (begins behind ">" || begins behind "," || beginsOnly behind ":" ["::"] ||
          begins behind "="))

/-- Whether a list of conditions, or of the bounds in one, ends here. -/
def endsCondition : Reader Bool := do
  let tokens ← ahead
  return tokens.isEmpty || beginsAny tokens [.group .brace, ",", ";", "="] ||
    beginsOnly tokens ":" ["::"]

/-- A condition: a lifetime or a type, and its bounds. -/
def condition : Reader Unit := do
  let tokens ← ahead
  if begins tokens .lifetime && begins (second tokens) ":" then
    expect .lifetime
    expect ":"
    chained (endsBounds [.group .brace, ",", ";", ":", "="]) "+" (expect .lifetime)
  else
    let _ ← optionalBinder nested
    let _ ← nested.type .whole
    expect ":"
    chained endsCondition "+" do
      let _ ← bound nested false true

/-- The conditions of a definition, if it has any, and whether it has. -/
def conditions : Reader Bool := do
  unless ← accept "where" do return false
  if parametersFollow (← ahead) then fail (.flawed .conditionWithParameters)
  chained endsCondition "," (condition nested)
  return true

end EnumNames.Declaration.Grammar
