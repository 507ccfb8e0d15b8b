import EnumNames.Text.Bytes
/-!
# Ceilings

A ceiling says how many values a table may probe. It is a natural number below 2^64, and it can
be given as a decimal numeral with blanks around it.
-/
namespace EnumNames.Ceiling

open Text

/-- The ceiling of an enumeration that sets none. -/
def standard : Nat := 1024

/-- The greatest ceiling there is. -/
def greatest : Nat := UInt64.size - 1

/-- A number, if it is a ceiling. -/
def checked? (number : Nat) : Option Nat := if number ≤ greatest then some number else none

/-- The value of decimal digits that follow a number, while it is still a ceiling. The number is
checked when it moves up by one place, and again with the digit in that place. -/
def readDigits? (value : Nat) : List UInt8 → Option Nat
  | [] => some value
  | byte :: rest =>
    if isDigit byte then do
      let moved ← checked? (10 * value)
      let longer ← checked? (moved + (byte.toNat - 48))
      readDigits? longer rest
    else none

/-- The bytes without the blanks at both ends. -/
def trim (text : List UInt8) : List UInt8 :=
  ((text.dropWhile isBlank).reverse.dropWhile isBlank).reverse

/-- The ceiling that a text gives: decimal digits, at least one, between any blanks. -/
def read? (text : String) : Option Nat :=
  match trim (bytes text) with
  | [] => none
  | digits => readDigits? 0 digits

end EnumNames.Ceiling
