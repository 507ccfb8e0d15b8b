import EnumNames.Declaration.Grammar.Nested
/-!
# Annotations

An annotation is what stands between brackets behind a hash: a path of names, and behind it nothing,
a group of any tokens, or a value. Outer annotations stand in front of what they belong to, and
inner ones, with an exclamation mark, inside it.
-/
namespace EnumNames.Declaration.Grammar

open Reader

/-- The signs of a segment of a path of names. -/
def nameSigns : List Sign := [.identifier, "super", "self", "Self", "crate"]

/-- A path of names, none of which has arguments. -/
def namePath : Reader Unit := do
  let _ ← accept "::"
  unless ← nextOf nameSigns do identifier
  iterate do
    unless ← nextOf nameSigns do missing .furtherSegment
    expect .anyWord
    accept "::"

/-- What stands between the brackets of an annotation. -/
def annotationContent (nested : Nested) : Reader Unit := do
  unless ← accept "unsafe" do namePath
  let tokens ← ahead
  match tokens with
  | .opening _ :: _ => let _ ← anyGroup
  | _ =>
    if ← accept "=" then
      let value ← ahead
      if begins value "#" && begins (second value) (.group .bracket) then
        fail (.flawed .annotationInside)
      let _ ← nested.expression .free

/-- Annotations with this content in front of a part, and whether there are any. -/
def annotationsOf (content : Reader Unit) : Reader Bool := do
  let annotated ← next "#"
  iterate do
    unless ← accept "#" do return false
    within .bracket content
    return true
  return annotated

/-- The annotations in front of a part, and whether there are any. -/
def annotations (nested : Nested) : Reader Bool := annotationsOf (annotationContent nested)

/-- The annotations at the start of the inside of a part. -/
def innerAnnotations (nested : Nested) : Reader Unit :=
  iterate do
    let tokens ← ahead
    unless begins tokens "#" && begins (second tokens) "!" do return false
    expect "#"
    expect "!"
    within .bracket (annotationContent nested)
    return true

end EnumNames.Declaration.Grammar
