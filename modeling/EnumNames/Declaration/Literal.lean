import EnumNames.Declaration.Token
/-!
# Spelling of words and literals

The characters of words, and where a literal that begins here ends. Text that is spelled as no
token is refused. Every character outside ASCII that is not a blank counts as part of a word: in
a declaration such a character stands only in words and in quoted literals.
-/
namespace EnumNames.Declaration

/-- Whether a character separates tokens. -/
def isBlank (char : Char) : Bool :=
  let code := char.toNat
  (9 ≤ code && code ≤ 13) || code == 32 || code == 0x85 || code == 0xA0 || code == 0x1680 ||
    (0x2000 ≤ code && code ≤ 0x200A) || code == 0x200E || code == 0x200F || code == 0x2028 ||
    code == 0x2029 || code == 0x202F || code == 0x205F || code == 0x3000

/-- Whether a word can begin with a character. -/
def startsWord (char : Char) : Bool :=
  char.isAlpha || char == '_' || (128 ≤ char.toNat && !isBlank char)

/-- Whether a word can go on with a character. -/
def continuesWord (char : Char) : Bool := startsWord char || char.isDigit

namespace Literal

/-- The suffix of a literal at the front of a text, which is empty if no word begins there. -/
def suffix (text : List Char) : String :=
  if text.head?.any startsWord then String.ofList (text.takeWhile continuesWord) else ""

/-- What follows the suffix of a literal. -/
def afterSuffix (text : List Char) : List Char :=
  if text.head?.any startsWord then text.dropWhile continuesWord else text

/-- Whether a character is a decimal digit or separates digits. -/
def isDecimal (char : Char) : Bool := char.isDigit || char == '_'

/-- The value of a hexadecimal digit. -/
def digit? (char : Char) : Option Nat :=
  if char.isDigit then some (char.toNat - '0'.toNat)
  else if 'a' ≤ char ∧ char ≤ 'f' then some (char.toNat - 'a'.toNat + 10)
  else if 'A' ≤ char ∧ char ≤ 'F' then some (char.toNat - 'A'.toNat + 10)
  else none

/-- The digits of a base at the front of a text, after digits of this value if there were any. A
decimal digit that the base does not have is refused. -/
def readDigits? (base : Nat) : (value : Option Nat) → List Char → Option (Nat × List Char)
  | value, [] => value.map (·, [])
  | value, char :: rest =>
    if char = '_' then readDigits? base value rest
    else
      match digit? char with
      | none => value.map (·, char :: rest)
      | some digit =>
        if digit < base then readDigits? base (some (base * value.getD 0 + digit)) rest
        else if char.isDigit then none
        else value.map (·, char :: rest)

/-- An integer at the front of a text: a base, the digits, and a suffix. -/
def readInteger? (text : List Char) : Option (Literal × List Char) :=
  let digits :=
    match text with
    | '0' :: 'x' :: rest => readDigits? 16 none rest
    | '0' :: 'o' :: rest => readDigits? 8 none rest
    | '0' :: 'b' :: rest => readDigits? 2 none rest
    | _ => readDigits? 10 none text
  digits.map fun (value, rest) =>
    (integer value (suffix rest), afterSuffix rest)

/-- What follows an exponent: at least one digit, after a sign if there is one. -/
def afterExponent? (signed valued : Bool) : List Char → Option (List Char)
  | [] => if valued then some [] else none
  | char :: rest =>
    if char.isDigit then afterExponent? signed true rest
    else if char = '_' then afterExponent? signed valued rest
    else if valued then some (char :: rest)
    else if (char = '+' ∨ char = '-') ∧ !signed then afterExponent? true valued rest
    else none

/-- What follows the exponent mark and the exponent after it, if there are any. -/
def afterPower? : List Char → Option (List Char)
  | [] => none
  | char :: rest => if char = 'e' ∨ char = 'E' then afterExponent? false false rest else none

/-- What follows a number that has a point or an exponent. A point in front of another point, or
in front of a word, is not part of a number. -/
def afterFloat? (text : List Char) : Option (List Char) :=
  match text.dropWhile isDecimal with
  | '.' :: rest =>
    if rest.head?.any fun char => char == '.' || startsWord char then none
    else
      let fraction := rest.dropWhile isDecimal
      some (afterSuffix ((afterPower? fraction).getD fraction))
  | rest => (afterPower? rest).map afterSuffix

/-- A number at the front of a text. -/
def readNumber? (text : List Char) : Option (Literal × List Char) :=
  match afterFloat? text with
  | some rest =>
    some (float (String.ofList (text.take (text.length - rest.length))), rest)
  | none => readInteger? text

/-- What follows a quotation, in which a backslash takes away the meaning of the next character. -/
def afterQuote? (quote : Char) : List Char → Option (List Char)
  | [] => none
  | ['\\'] => none
  | '\\' :: _ :: rest => afterQuote? quote rest
  | char :: rest => if char = quote then some rest else afterQuote? quote rest

/-- What follows a quotation without escapes, which ends with a quote and so many hashes. -/
def afterRawQuote? (hashes : Nat) : List Char → Option (List Char)
  | [] => none
  | char :: rest =>
    if char = '"' ∧ rest.take hashes = List.replicate hashes '#' then some (rest.drop hashes)
    else afterRawQuote? hashes rest

/-- What follows the hashes, the quotation and the hashes of a quotation without escapes. -/
def afterRaw? (text : List Char) : Option (List Char) :=
  match text.dropWhile (· == '#') with
  | '"' :: rest => afterRawQuote? (text.takeWhile (· == '#')).length rest
  | _ => none

/-- A quoted literal at the front of a text. A character after a single quote is a literal only
with the second quote right after it. -/
def readQuoted? (text : List Char) : Option (Literal × List Char) :=
  let found :=
    match text with
    | '"' :: rest => (Literal.text, afterQuote? '"' rest)
    | 'r' :: rest => (Literal.text, afterRaw? rest)
    | 'b' :: '"' :: rest | 'c' :: '"' :: rest => (quoted, afterQuote? '"' rest)
    | 'b' :: 'r' :: rest | 'c' :: 'r' :: rest => (quoted, afterRaw? rest)
    | 'b' :: '\'' :: '\\' :: rest | '\'' :: '\\' :: rest =>
      (quoted, afterQuote? '\'' ('\\' :: rest))
    | 'b' :: '\'' :: _ :: '\'' :: rest | '\'' :: _ :: '\'' :: rest => (quoted, some rest)
    | _ => (quoted, none)
  found.2.map fun rest => (found.1, afterSuffix rest)

end Literal

end EnumNames.Declaration
