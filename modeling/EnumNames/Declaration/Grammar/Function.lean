import EnumNames.Declaration.Grammar.Block
import EnumNames.Declaration.Grammar.Generics
/-!
# Functions

The head of a function: from where it can be seen, how it is called, its parameters and its result.
-/
namespace EnumNames.Declaration.Grammar

open Reader

variable (nested : Nested)

/-- From where a definition can be seen, and whether that is written. Parentheses with anything
else in them belong to what follows. -/
def visibility : Reader Bool := do
  unless ← accept "pub" do return false
  match ← ahead with
  | .opening .parenthesis :: rest =>
    match Token.inside rest with
    | [.word ⟨false, "crate"⟩] | [.word ⟨false, "self"⟩] | [.word ⟨false, "super"⟩] =>
      within .parenthesis remaining
    | .word ⟨false, "in"⟩ :: _ =>
      within .parenthesis do
        expect "in"
        namePath
    | _ => pure ()
  | _ => pure ()
  return true

/-- The tokens without a sign, if they begin with it. -/
def without (tokens : List Token) (sign : Sign) : List Token :=
  tokens.drop ((sign.width? tokens).getD 0)

/-- Whether the head of a function begins here, which can be marked as safe in some places. -/
def signatureFollows (allowSafe : Bool) (tokens : List Token) : Bool :=
  let tokens := without (without tokens "const") "async"
  let tokens := without tokens (if allowSafe && begins tokens "safe" then "safe" else "unsafe")
  let tokens :=
    if begins tokens "extern" then without (without tokens "extern") .text else tokens
  begins tokens "fn"

/-- The value that a function belongs to. -/
def receiver : Reader Unit := do
  let referring ← accept "&"
  if referring then
    let _ ← accept .lifetime
  let _ ← accept "mut"
  expect "self"
  unless referring do
    if ← accept ":" then
      let _ ← nested.type .whole

/-- The kinds of parameters. -/
inductive Parameter where
  | receiver
  | typed
  /-- Any further parameters. -/
  | further
deriving DecidableEq, Repr

/-- A parameter behind its annotations. A name with arguments is a type without a name. -/
def functionParameter : Reader Parameter := do
  if ← attempt (receiver nested) then return .receiver
  let tokens ← ahead
  unless begins tokens .identifier && begins (second tokens) "<" do
    let _ ← nested.pattern
    expect ":"
    if ← accept "..." then return .further
  let _ ← nested.type .whole
  return .typed

/-- What is known of the parameters that have been read. -/
inductive Parameters where
  | none
  | typed
  | received
deriving DecidableEq, Repr

/-- The parameters of a function. A receiver is the first of them. -/
def functionParameters : Reader Unit := do
  let _ ← loop (fun before => do
    if ← atEnd then return (before, false)
    let _ ← annotations nested
    let kind ← if ← accept "..." then pure .further else functionParameter nested
    match kind, before with
    | .receiver, .received => fail (.flawed .secondReceiver)
    | .receiver, .typed => fail (.flawed .lateReceiver)
    | _, _ => pure ()
    if ← atEnd then return (before, false)
    expect ","
    let received := kind == .receiver || before == .received
    return (if received then .received else .typed, kind != .further)) Parameters.none

/-- The head of a function. -/
def signature (allowSafe : Bool) : Reader Unit := do
  let _ ← accept "const"
  let _ ← accept "async"
  unless ← accept "unsafe" do
    if allowSafe then
      let _ ← accept "safe"
  convention
  expect "fn"
  identifier
  let _ ← generics nested
  within .parenthesis (functionParameters nested)
  let _ ← result nested .whole
  let _ ← conditions nested

end EnumNames.Declaration.Grammar
