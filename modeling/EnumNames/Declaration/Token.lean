/-!
# Tokens of declarations

A declaration is written in words, punctuation, literals and groups between delimiters. A group
is not nested in a token: its delimiters are tokens of their own, so what is inside a group ends
at a closing delimiter. The laws say that leaving a group never adds tokens.
-/
namespace EnumNames.Declaration

/-- A word. A raw word is written with `r#` in front, and is never a keyword. -/
structure Word where
  /-- Whether the word is written with `r#` in front. -/
  raw : Bool := false
  /-- The word without the `r#`. -/
  plain : String
deriving DecidableEq, Repr

namespace Word

/-- The word as it is written. -/
def written (word : Word) : String := if word.raw then "r#" ++ word.plain else word.plain

/-- The word with this written form. -/
def ofWritten (text : String) : Word :=
  match text.toList with
  | 'r' :: '#' :: plain => ⟨true, String.ofList plain⟩
  | _ => ⟨false, text⟩

/-- The words that are no identifiers unless they are raw. -/
def keywords : List String :=
  ["_", "abstract", "as", "async", "await", "become", "box", "break", "const", "continue", "crate",
    "do", "dyn", "else", "enum", "extern", "false", "final", "fn", "for", "if", "impl", "in", "let",
    "loop", "macro", "match", "mod", "move", "mut", "override", "priv", "pub", "ref", "return",
    "Self", "self", "static", "struct", "super", "trait", "true", "try", "type", "typeof", "unsafe",
    "unsized", "use", "virtual", "where", "while", "yield"]

/-- Whether the word is a keyword. -/
def isKeyword (word : Word) : Bool := !word.raw && keywords.contains word.plain

/-- Whether the word is one of the keywords that name the place or type they stand in. -/
def isSelfReference (word : Word) : Bool :=
  !word.raw && ["self", "Self", "super", "crate"].contains word.plain

/-- Whether the word can be the first segment of a path. -/
def startsPath (word : Word) : Bool := !word.isKeyword || word.isSelfReference

end Word

/-- The delimiters of a group. -/
inductive Delimiter where
  | parenthesis
  | bracket
  | brace
deriving DecidableEq, Repr

namespace Delimiter

/-- The character that begins a group. -/
def opening : Delimiter → String
  | parenthesis => "("
  | bracket => "["
  | brace => "\x7b"

/-- The character that ends a group. -/
def closing : Delimiter → String
  | parenthesis => ")"
  | bracket => "]"
  | brace => "\x7d"

end Delimiter

/-- A literal. -/
inductive Literal where
  /-- An integer of any base, and the suffix behind its digits, which is empty if there is none. -/
  | integer (value : Nat) (suffix : String)
  /-- A number with a fraction or an exponent, as it is written. -/
  | float (spelling : String)
  /-- A text. -/
  | text
  /-- A character, bytes, or a text that ends with a zero byte. -/
  | quoted
deriving DecidableEq, Repr

/-- Whether a literal is a number. -/
def Literal.isNumber : Literal → Bool
  | integer _ _ | float _ => true
  | text | quoted => false

/-- One token. -/
inductive Token where
  /-- An identifier or a keyword. -/
  | word (word : Word)
  /-- A punctuation character, and whether another one follows it directly. -/
  | mark (char : Char) (joint : Bool)
  /-- A literal. -/
  | literal (literal : Literal)
  /-- A word after a single quote. -/
  | lifetime
  /-- The start of a group. -/
  | opening (delimiter : Delimiter)
  /-- The end of a group. -/
  | closing (delimiter : Delimiter)
deriving DecidableEq, Repr

namespace Token

/-- A token as it is written in a visibility, where neither literals nor lifetimes stand. -/
def written : Token → String
  | word spelled => spelled.written
  | mark char _ => char.toString
  | literal _ | lifetime => ""
  | opening delimiter => delimiter.opening
  | closing delimiter => delimiter.closing

/-- The tokens up to the end of the group that they begin in, when so many inner groups are still
open. -/
def toClosing (inner : Nat) : List Token → List Token
  | [] => []
  | token :: rest =>
    match token, inner with
    | opening _, inner => token :: toClosing (inner + 1) rest
    | closing _, 0 => []
    | closing _, outer + 1 => token :: toClosing outer rest
    | _, inner => token :: toClosing inner rest

/-- The tokens from the end of the group that they begin in, the delimiter included, when so many
inner groups are still open. -/
def fromClosing (inner : Nat) : List Token → List Token
  | [] => []
  | token :: rest =>
    match token, inner with
    | opening _, inner => fromClosing (inner + 1) rest
    | closing _, 0 => token :: rest
    | closing _, outer + 1 => fromClosing outer rest
    | _, inner => fromClosing inner rest

/-- The tokens inside the group that they begin in. -/
def inside (tokens : List Token) : List Token := toClosing 0 tokens

/-- The tokens after the group that they begin in. -/
def afterClosing (tokens : List Token) : List Token := (fromClosing 0 tokens).tail

/-- The tokens after the first one, or after the group that the first one begins. -/
def afterFirst : List Token → List Token
  | opening _ :: rest => afterClosing rest
  | tokens => tokens.tail

/-- The end of a group parts its tokens from those after it. -/
theorem toClosing_append_fromClosing (inner : Nat) (tokens : List Token) :
    toClosing inner tokens ++ fromClosing inner tokens = tokens := by
  fun_induction toClosing inner tokens <;> simp_all [fromClosing]

/-- The end of a group is among its tokens. -/
theorem length_fromClosing_le (inner : Nat) (tokens : List Token) :
    (fromClosing inner tokens).length ≤ tokens.length := by
  fun_induction fromClosing inner tokens <;> simp_all <;> omega

/-- Leaving a group takes tokens away. -/
theorem length_afterClosing_le (tokens : List Token) :
    (afterClosing tokens).length ≤ tokens.length := by
  have := length_fromClosing_le 0 tokens
  simp only [afterClosing, List.length_tail]
  omega

/-- Whether groups end in the order in which they began, the open ones being these. -/
def nested : (outer : List Delimiter) → List Token → Bool
  | outer, [] => outer.isEmpty
  | outer, opening delimiter :: rest => nested (delimiter :: outer) rest
  | [], closing _ :: _ => false
  | current :: outer, closing delimiter :: rest => delimiter == current && nested outer rest
  | outer, _ :: rest => nested outer rest

end Token

/-- What is left after reading some of the tokens, or none of them. -/
abbrev Rest (tokens : List Token) := { rest : List Token // rest.length ≤ tokens.length }

/-- All of the tokens are left. -/
def Rest.all (tokens : List Token) : Rest tokens := ⟨tokens, Nat.le_refl _⟩

/-- What is left after reading at least one of the tokens. -/
abbrev Later (tokens : List Token) := { later : List Token // later.length < tokens.length }

end EnumNames.Declaration
