import EnumNames.Text.Shown
/-!
# Quoted text

A text is shown between double quotes. The quote and the backslash get a backslash in front, tab,
line feed, carriage return and the null character have a letter or digit after a backslash, every
other character without a printed form of its own is spelled by its number, and all else stands
for itself.
-/
namespace EnumNames.Text

/-- The spelling of one character inside quotes. -/
def escape (char : Char) : String :=
  if char = '"' then "\\\""
  else if char = '\\' then "\\\\"
  else if char = '\t' then "\\t"
  else if char = '\n' then "\\n"
  else if char = '\r' then "\\r"
  else if char.toNat = 0 then "\\0"
  else if isShown char then char.toString
  else "\\u\x7b" ++ String.ofList (Nat.toDigits 16 char.toNat) ++ "\x7d"

/-- The text between double quotes. -/
def quote (text : String) : String := "\"" ++ String.join (text.toList.map escape) ++ "\""

end EnumNames.Text
