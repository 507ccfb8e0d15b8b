import EnumNames.Declaration.Token
/-!
# Signs

A sign is what a place in a declaration can ask for by one look at the tokens: a keyword or
punctuation as it is written, or a kind of token. Punctuation of several characters is a sign only
if each of them but the last is directly followed by the next.
-/
namespace EnumNames.Declaration

/-- What a place can ask for by one look at the tokens. -/
inductive Sign where
  /-- A keyword or punctuation, as it is written. -/
  | spelled (text : String)
  /-- A word that is no keyword. -/
  | identifier
  /-- A word, keywords included. -/
  | anyWord
  /-- A word after a single quote. -/
  | lifetime
  /-- A literal, a truth value, or a number behind a minus sign. -/
  | literal
  /-- A text literal. -/
  | text
  /-- A group between these delimiters. -/
  | group (delimiter : Delimiter)
deriving DecidableEq, Repr

instance : Coe String Sign := ⟨.spelled⟩

/-- The wording of a group. -/
def Delimiter.wording : Delimiter → String
  | parenthesis => "parentheses"
  | bracket => "square brackets"
  | brace => "curly braces"

namespace Sign

/-- Whether a sign is punctuation, and no word and no kind of token. -/
def isPunctuation : Sign → Bool
  | spelled spelling => !spelling.toList.head?.any fun char => char.isAlpha || char == '_'
  | _ => false

/-- The wording of a sign. -/
def wording : Sign → String
  | spelled spelling => "`" ++ spelling ++ "`"
  | identifier | anyWord => "identifier"
  | lifetime => "lifetime"
  | literal => "literal"
  | text => "string literal"
  | group delimiter => delimiter.wording

/-- The number of tokens that punctuation with these characters takes at the front. -/
def punctuationWidth? : List Char → List Token → Option Nat
  | [], _ => none
  | [char], .mark first _ :: _ => if first = char then some 1 else none
  | char :: more, .mark first true :: rest =>
    if first = char then (punctuationWidth? more rest).map (· + 1) else none
  | _, _ => none

/-- The number of tokens that a sign takes at the front, if it stands there. Of a group it is the
delimiter alone. -/
def width? : Sign → List Token → Option Nat
  | spelled spelling, tokens =>
    if (spelled spelling).isPunctuation then punctuationWidth? spelling.toList tokens
    else if tokens.head? = some (.word ⟨false, spelling⟩) then some 1
    else none
  | identifier, .word word :: _ => if word.isKeyword then none else some 1
  | anyWord, .word _ :: _ => some 1
  | lifetime, .lifetime :: _ => some 1
  | literal, .literal _ :: _ | literal, .word ⟨false, "true"⟩ :: _
  | literal, .word ⟨false, "false"⟩ :: _ => some 1
  | literal, .mark '-' _ :: .literal number :: _ => if number.isNumber then some 2 else none
  | text, .literal .text :: _ => some 1
  | group delimiter, .opening found :: _ => if found = delimiter then some 1 else none
  | _, _ => none

end Sign

/-- Whether the tokens begin with a sign. -/
def begins (tokens : List Token) (sign : Sign) : Bool := (sign.width? tokens).isSome

/-- Whether the tokens begin with one of several signs. -/
def beginsAny (tokens : List Token) (signs : List Sign) : Bool := signs.any (begins tokens)

/-- Whether the tokens begin with a sign that none of the longer ones extends. -/
def beginsOnly (tokens : List Token) (sign : Sign) (longer : List Sign) : Bool :=
  begins tokens sign && !beginsAny tokens longer

/-- The tokens from the second one on, a group counting as one. -/
def second (tokens : List Token) : List Token := Token.afterFirst tokens

/-- The tokens from the third one on, a group counting as one. -/
def third (tokens : List Token) : List Token := Token.afterFirst (Token.afterFirst tokens)

end EnumNames.Declaration
