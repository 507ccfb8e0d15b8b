import EnumNames.Declaration.Fault
/-!
# Readers

A reader takes tokens from the front and leaves the others, or meets a fault. What stands in a
group is read as a list of tokens of its own. A group that is left before its end is no fault at
once: a reader says which group was the first, and what reads on decides. The loops end because a
round that takes no token is the last one.
-/
namespace EnumNames.Declaration

/-- What a reader has read. -/
structure Reading (α : Type) (tokens : List Token) where
  /-- What the tokens mean. -/
  value : α
  /-- The tokens that are left. -/
  rest : Rest tokens
  /-- The first group that was left before its end. -/
  unread : Option Delimiter := none

/-- Takes tokens from the front, or meets a fault. -/
def Reader (α : Type) : Type := (tokens : List Token) → Except Fault (Reading α tokens)

variable {α β : Type}

/-- What is read behind a first part, as read together with it. -/
def Reading.behind {tokens : List Token} (first : Reading α tokens)
    (later : Reading β first.rest.val) : Reading β tokens :=
  ⟨later.value, ⟨later.rest.val, Nat.le_trans later.rest.property first.rest.property⟩,
    first.unread.or later.unread⟩

namespace Reader

instance : Monad Reader where
  pure value := fun tokens => .ok ⟨value, .all tokens, none⟩
  bind reader next := fun tokens =>
    match reader tokens with
    | .error fault => .error fault
    | .ok first => (next first.value first.rest.val).map (Reading.behind first)

/-- Meets a fault. -/
def fail (fault : Fault) : Reader α := fun _ => .error fault

/-- The tokens in front, of which none is taken. -/
def ahead : Reader (List Token) := fun tokens => .ok ⟨tokens, .all tokens, none⟩

/-- Takes so many tokens. -/
def skip (count : Nat) : Reader Unit := fun tokens =>
  .ok ⟨(), ⟨tokens.drop count, by simp⟩, none⟩

/-- Whether no tokens are left. -/
def atEnd : Reader Bool := return (← ahead).isEmpty

/-- Whether a sign is next. -/
def next (sign : Sign) : Reader Bool := return begins (← ahead) sign

/-- Takes a sign if it is next, and says whether it was. -/
def accept (sign : Sign) : Reader Bool := do
  match sign.width? (← ahead) with
  | some width => skip width; return true
  | none => return false

/-- Something else was asked for here. -/
def missing (expectation : Expectation) : Reader α := do
  fail (.expected expectation (← atEnd))

/-- One of these signs was asked for here. One that is next all the same is not named: it was
asked for together with something behind it. -/
def refuse (signs : List Sign) : Reader α := do
  let tokens ← ahead
  missing (.signs (signs.filter fun sign => !begins tokens sign))

/-- Takes a sign that has to be next. The wording does not say of punctuation that nothing is
left. -/
def expect (sign : Sign) : Reader Unit := do
  unless ← accept sign do
    match sign with
    | .spelled text => if sign.isPunctuation then fail (.expectedMark text) else refuse [sign]
    | _ => refuse [sign]

/-- Takes a word that is no keyword. -/
def identifier : Reader Unit := do
  match ← ahead with
  | .word word :: _ => if word.isKeyword then fail (.keyword word.plain) else skip 1
  | _ => refuse [.identifier]

/-- Takes a group between these delimiters and reads what is in it. -/
def within (delimiter : Delimiter) (inner : Reader α) : Reader α := fun tokens =>
  match tokens with
  | .opening found :: rest =>
    if found = delimiter then do
      let ⟨value, left, unread⟩ ← inner (Token.inside rest)
      let behind := Token.afterClosing rest
      return ⟨value, ⟨behind, Nat.le_succ_of_le (Token.length_afterClosing_le rest)⟩,
        unread.or (if left.val.isEmpty then none else some delimiter)⟩
    else .error (.expected (.signs [.group delimiter]) false)
  | _ => .error (.expected (.signs [.group delimiter]) tokens.isEmpty)

/-- Takes the tokens that are left. -/
def remaining : Reader Unit := fun _ => .ok ⟨(), ⟨[], Nat.zero_le _⟩, none⟩

/-- Takes a group whatever is in it, and gives its delimiters. -/
def anyGroup : Reader Delimiter := do
  match ← ahead with
  | .opening delimiter :: _ => within delimiter remaining; return delimiter
  | _ => missing .group

/-- The tokens that a reader would leave, of which none is taken. -/
def lookPast (reader : Reader Unit) : Reader (List Token) := fun tokens => do
  return ⟨(← reader tokens).rest.val, .all tokens, none⟩

/-- Reads a part if it has no fault, and says whether it was read. -/
def attempt (reader : Reader Unit) : Reader Bool := fun tokens =>
  match reader tokens with
  | .ok ⟨_, rest, unread⟩ => .ok ⟨true, rest, unread⟩
  | .error _ => .ok ⟨false, .all tokens, none⟩

/-- Reads a part, and says whether its last token ends a block. -/
def endsWithBrace (reader : Reader Unit) : Reader Bool := fun tokens => do
  let ⟨_, rest, unread⟩ ← reader tokens
  let taken := tokens.take (tokens.length - rest.val.length)
  return ⟨taken.getLast? = some (.closing .brace), rest, unread⟩

/-- Repeats a step on what is known as long as it asks for it. -/
def loop (step : α → Reader (α × Bool)) (known : α) : Reader α := fun tokens =>
  match step known tokens with
  | .error fault => .error fault
  | .ok ⟨(known, again), ⟨rest, taken⟩, unread⟩ =>
    if shorter : again ∧ rest.length < tokens.length then
      match loop step known rest with
      | .error fault => .error fault
      | .ok ⟨known, ⟨later, _⟩, other⟩ => .ok ⟨known, ⟨later, by omega⟩, unread.or other⟩
    else .ok ⟨known, ⟨rest, taken⟩, unread⟩
termination_by tokens => tokens.length

/-- Repeats a step as long as it asks for it. -/
def iterate (step : Reader Bool) : Reader Unit := loop (fun () => return ((), ← step)) ()

/-- Elements up to an end, with a separator between any two. One may follow the last. -/
def separated (ends : Reader Bool) (separator : Sign) (element : Reader Unit) : Reader Unit :=
  iterate do
    if ← ends then return false
    element
    if ← ends then return false
    expect separator
    return true

/-- Elements up to an end, or up to the first that no separator follows. -/
def chained (ends : Reader Bool) (separator : Sign) (element : Reader Unit) : Reader Unit :=
  iterate do
    if ← ends then return false
    element
    accept separator

/-- Elements up to the end of the tokens, with a comma between any two. -/
def listed (element : Reader Unit) : Reader Unit := separated atEnd "," element

/-- Parts up to the end of the tokens. -/
def all (part : Reader Unit) : Reader Unit :=
  iterate do
    if ← atEnd then return false
    part
    return true

/-- Whether one of these signs is next. -/
def nextOf (signs : List Sign) : Reader Bool := return beginsAny (← ahead) signs

end Reader

end EnumNames.Declaration
