import EnumNames.Declaration.Grammar.Member
import EnumNames.Declaration.Grammar.Type
/-!
# Patterns

The patterns that a value can be compared with. A pattern binds names, and can hold other patterns
in groups.
-/
namespace EnumNames.Declaration.Grammar

open Reader

variable (nested : Nested)

/-- Whether another alternative of a pattern follows. -/
def alternativeFollows : Reader Bool := return beginsOnly (← ahead) "|" ["||", "|="]

/-- A pattern with its alternatives, the first of which has been read. -/
def furtherAlternatives : Reader Unit :=
  iterate do
    unless ← alternativeFollows do return false
    expect "|"
    let _ ← nested.pattern
    return true

/-- A pattern with its alternatives, in front of which a bar may stand. -/
def alternatives : Reader PatternShape := do
  let bar ← accept "|"
  let shape ← nested.pattern
  let several ← alternativeFollows
  furtherAlternatives nested
  return if bar || several then .other else shape

/-- The points of a range, the number of which may be three, and whether the range includes its
end. -/
def patternPoints : Reader Bool := do
  if ← accept "..=" then return true
  else if ← accept "..." then return true
  else if ← accept ".." then return false
  else refuse [".."]

/-- The points of a range, and whether the range includes its end. -/
def rangePoints : Reader Bool := do
  let tokens ← ahead
  if ← accept "..=" then return true
  else if beginsOnly tokens ".." ["..."] then
    expect ".."
    return false
  else refuse ["..", "..="]

/-- A block that is evaluated once and for all. -/
def constantBlock : Reader Unit := do
  expect "const"
  within .brace do
    innerAnnotations nested
    nested.statements

/-- One end of a range, if there is one, and whether there is. -/
def patternBound : Reader Bool := do
  let tokens ← ahead
  if tokens.isEmpty || beginsAny tokens ["|", "=", ",", ";", "if"] ||
      beginsOnly tokens ":" ["::"] then return false
  else if ← accept .literal then return true
  else if ← nextOf [.identifier, "::", "<", "self", "Self", "super", "crate"] then
    let _ ← path nested .elsewhere
    return true
  else if ← next "const" then
    constantBlock nested
    return true
  else refuse [.literal, .identifier, "::", "<", "self", "Self", "super", "crate", "const"]

/-- The points of a range and its end. -/
def patternRange : Reader PatternShape := do
  let inclusive ← patternPoints
  let bounded ← patternBound nested
  if inclusive && !bounded then missing .upperBound
  return if bounded then .other else .openRange

/-- A range without a start, or what stands for the other elements. -/
def startlessRange : Reader PatternShape := do
  let inclusive ← rangePoints
  if ← patternBound nested then return .openRange
  else if inclusive then missing .upperBound
  else return .others

/-- A field of a value, with a pattern or bound to its own name. -/
def fieldPattern : Reader Unit := do
  let boxed ← accept "box"
  let referring ← accept "ref"
  let mutable ← accept "mut"
  let marked := boxed || referring || mutable
  let named ← if marked then do identifier; pure true else member
  let bindsName := named && (marked || !(← next ":"))
  unless bindsName do
    expect ":"
    let _ ← alternatives nested

/-- The fields of a value, up to what stands for the other ones. -/
def fieldPatterns : Reader Unit :=
  iterate do
    if ← atEnd then return false
    let _ ← annotations nested
    if ← accept ".." then return false
    fieldPattern nested
    if ← atEnd then return false
    expect ","
    return true

/-- The elements of a slice, which has no range without both of its ends among them. -/
def sliceElement : Reader Unit := do
  if (← alternatives nested) = .openRange then fail (.flawed .openRangeInSlice)

/-- A pattern that begins with a path. -/
def pathPattern : Reader PatternShape := do
  let path ← path nested .elsewhere
  if (← invocation path).isSome then return .other
  else if ← next (.group .brace) then
    within .brace (fieldPatterns nested)
    return .other
  else if ← next (.group .parenthesis) then
    within .parenthesis (listed do
      let _ ← alternatives nested)
    return .other
  else if ← next ".." then patternRange nested
  else return .other

/-- A pattern that is a name, which may be bound to what another pattern describes. -/
def namePattern : Reader Unit := do
  let _ ← accept "ref"
  let _ ← accept "mut"
  unless ← accept "self" do identifier
  if ← accept "@" then
    let _ ← nested.pattern

/-- Whether a pattern that begins here begins with a path, and not with a name alone. -/
def pathPatternFollows (tokens : List Token) : Bool :=
  let behind := second tokens
  begins tokens .identifier &&
      beginsAny behind ["::", "!", .group .brace, .group .parenthesis, ".."] ||
    begins tokens "self" && begins behind "::" ||
    beginsAny tokens ["::", "<", "Self", "super", "crate"]

/-- The signs that a pattern can begin with. -/
def patternSigns : List Sign :=
  [.identifier, "::", "<", "_", .literal, "const", "ref", "mut", "&", .group .parenthesis,
    .group .bracket, "..", "const"]

/-- A pattern without alternatives. -/
def pattern : Reader PatternShape := do
  let tokens ← ahead
  if pathPatternFollows tokens then pathPattern nested
  else if ← accept "_" then return .other
  else if ← accept "box" then
    let _ ← nested.pattern
    return .other
  else if ← nextOf ["-", .literal, "const"] then
    let _ ← patternBound nested
    if ← next ".." then patternRange nested else return .other
  else if ← nextOf ["ref", "mut", "self", .identifier] then
    namePattern nested
    return .other
  else if ← accept "&" then
    let _ ← accept "mut"
    let _ ← nested.pattern
    return .other
  else if ← next (.group .parenthesis) then
    within .parenthesis (listed do
      let _ ← alternatives nested)
    return .other
  else if ← next (.group .bracket) then
    within .bracket (listed (sliceElement nested))
    return .other
  else if beginsOnly tokens ".." ["..."] then startlessRange nested
  else refuse patternSigns

end EnumNames.Declaration.Grammar
