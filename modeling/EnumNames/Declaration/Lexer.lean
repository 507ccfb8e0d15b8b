import EnumNames.Declaration.Literal
/-!
# Reading tokens

The tokens of a text. Blanks and comments between them are left out, but a comment that documents
what follows it stands for an attribute. A text has tokens if each of its parts is spelled as one
and its groups are properly nested.
-/
namespace EnumNames.Declaration.Token

/-- The attribute that a comment of documentation stands for. It belongs to what follows it, or
to what it stands in. -/
def documentation (inner : Bool) : List Token :=
  let sign := if inner then [mark '#' false, mark '!' false] else [mark '#' false]
  sign ++ [opening .bracket, word ⟨false, "doc"⟩, mark '=' false, literal .text, closing .bracket]

/-- The text after the comment that it begins in, when so many inner comments are still open. -/
def afterComment? : (inner : Nat) → List Char → Option (List Char)
  | _, [] => none
  | 0, '*' :: '/' :: rest => some rest
  | outer + 1, '*' :: '/' :: rest => afterComment? outer rest
  | inner, '/' :: '*' :: rest => afterComment? (inner + 1) rest
  | inner, _ :: rest => afterComment? inner rest

/-- A comment at the front of a text, as what it stands for. -/
def readComment? : List Char → Option (List Token × List Char)
  | '/' :: '/' :: '!' :: rest => some (documentation true, rest.dropWhile (· != '\n'))
  | '/' :: '/' :: '/' :: '/' :: rest => some ([], rest.dropWhile (· != '\n'))
  | '/' :: '/' :: '/' :: rest => some (documentation false, rest.dropWhile (· != '\n'))
  | '/' :: '/' :: rest => some ([], rest.dropWhile (· != '\n'))
  | '/' :: '*' :: '!' :: rest => (afterComment? 0 rest).map (documentation true, ·)
  | '/' :: '*' :: '*' :: '*' :: rest => (afterComment? 0 ('*' :: '*' :: rest)).map ([], ·)
  | '/' :: '*' :: '*' :: '/' :: rest => some ([], rest)
  | '/' :: '*' :: '*' :: rest => (afterComment? 0 rest).map (documentation false, ·)
  | '/' :: '*' :: rest => (afterComment? 0 rest).map ([], ·)
  | _ => none

/-- The characters of punctuation. -/
def marks : List Char := "~!@#$%^&*-=+|;:,<.>/?'".toList

/-- Whether punctuation begins here, which a comment is not. -/
def startsMark : List Char → Bool
  | '/' :: '/' :: _ | '/' :: '*' :: _ | [] => false
  | char :: _ => marks.contains char

/-- The word at the front of a text. -/
def readWord : List Char → Word × List Char
  | 'r' :: '#' :: rest =>
    (⟨true, String.ofList (rest.takeWhile continuesWord)⟩, rest.dropWhile continuesWord)
  | text =>
    (⟨false, String.ofList (text.takeWhile continuesWord)⟩, text.dropWhile continuesWord)

/-- Whether a word begins here, which may be a raw one. -/
def startsName : List Char → Bool
  | 'r' :: '#' :: rest => rest.head?.any startsWord
  | text => text.head?.any startsWord

/-- The token at the front of a text. -/
def read? : List Char → Option (Token × List Char)
  | [] => none
  | '(' :: rest => some (opening .parenthesis, rest)
  | ')' :: rest => some (closing .parenthesis, rest)
  | '[' :: rest => some (opening .bracket, rest)
  | ']' :: rest => some (closing .bracket, rest)
  | '{' :: rest => some (opening .brace, rest)
  | '}' :: rest => some (closing .brace, rest)
  | char :: rest =>
    match Literal.readQuoted? (char :: rest) with
    | some (found, later) => some (literal found, later)
    | none =>
      if char.isDigit then
        (Literal.readNumber? (char :: rest)).map fun (number, later) => (literal number, later)
      else if startsName (char :: rest) then
        let (spelled, later) := readWord (char :: rest)
        some (word spelled, later)
      else if char = '\'' then
        if startsName rest then some (lifetime, (readWord rest).2) else none
      else if marks.contains char then some (mark char (startsMark rest), rest)
      else none

/-- What stands at the front of a text: a blank or a comment, or a token. -/
def readPart? : List Char → Option (List Token × List Char)
  | [] => none
  | char :: rest =>
    if isBlank char then some ([], rest)
    else
      match readComment? (char :: rest) with
      | some part => some part
      | none => (read? (char :: rest)).map fun (token, later) => ([token], later)

/-- The tokens of a text, however their groups are nested. A part takes at least one character
of the text, and the text that is left is shorter. -/
def readAll? : List Char → Option (List Token)
  | [] => some []
  | char :: rest =>
    match readPart? (char :: rest) with
    | none => none
    | some (tokens, later) =>
      if later.length < (char :: rest).length then (readAll? later).map (tokens ++ ·) else none
termination_by text => text.length
decreasing_by assumption

/-- The tokens of a text. -/
def ofText? (text : String) : Option (List Token) :=
  (readAll? text.toList).filter (nested [])

end EnumNames.Declaration.Token
