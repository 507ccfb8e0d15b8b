import EnumNames.Declaration.Lexer
import EnumNames.Proofs.Declaration.Ends
import Mathlib.Data.List.TakeWhile
/-!
# Tokens of decimal integers

The digits of an integer are one literal, whose value they are, and a minus sign in front of them is
a token of its own. So every integer is spelled in tokens that are read as an end.
-/
namespace EnumNames.Declaration

variable {digits : List Char} {char : Char}

/-- The code of a decimal digit. -/
theorem toNat_of_isDigit (digit : char.isDigit) : 48 ≤ char.toNat ∧ char.toNat ≤ 57 := by
  rw [Char.isDigit, Bool.and_eq_true, decide_eq_true_eq, decide_eq_true_eq] at digit
  exact digit

/-- A digit is no other character than a digit. -/
theorem ne_of_isDigit (digit : char.isDigit) {other : Char} (different : other.isDigit = false) :
    char ≠ other := by
  rintro rfl
  exact absurd (digit.symm.trans different) (by decide)

/-- A digit is no blank. -/
theorem isBlank_of_isDigit (digit : char.isDigit) : isBlank char = false := by
  have code := toNat_of_isDigit digit
  simp only [isBlank, Bool.or_eq_false_iff, Bool.and_eq_false_iff, decide_eq_false_iff_not,
    beq_eq_false_iff_ne]
  omega

namespace Literal

/-- The value of decimal digits that follow others, of this value if there are any. -/
theorem readDigits?_of_isDigit (shown : ∀ char ∈ digits, char.isDigit) (value : Option Nat)
    (some_digit : digits ≠ [] ∨ value ≠ none) :
    readDigits? 10 value digits = some (Nat.ofDigitChars 10 digits (value.getD 0), []) := by
  induction digits generalizing value with
  | nil =>
    cases value with
    | none => simp at some_digit
    | some value => rfl
  | cons char rest hypothesis =>
    have digit : char.isDigit := shown char List.mem_cons_self
    have zero : '0'.toNat = 48 := rfl
    have decimal : char.toNat - '0'.toNat < 10 := by
      have code := toNat_of_isDigit digit
      omega
    rw [readDigits?, if_neg (ne_of_isDigit digit rfl), digit?, if_pos digit]
    simp only [if_pos decimal]
    rw [hypothesis (fun char member => shown char (List.mem_cons_of_mem _ member)) _
      (.inr (by simp)), Nat.ofDigitChars_cons]
    rfl

/-- Nothing behind decimal digits makes them a number with a fraction or an exponent. -/
theorem afterFloat?_of_isDigit (shown : ∀ char ∈ digits, char.isDigit) :
    afterFloat? digits = none := by
  have all : digits.dropWhile isDecimal = [] := by
    rw [List.dropWhile_eq_nil_iff]
    intro char member
    rw [isDecimal, shown char member, Bool.true_or]
  rw [afterFloat?, all]
  rfl

/-- Decimal digits are an integer without a suffix. -/
theorem readNumber?_of_isDigit (shown : ∀ char ∈ digits, char.isDigit) (some_digit : digits ≠ []) :
    readNumber? digits = some (integer (Nat.ofDigitChars 10 digits 0) "", []) := by
  have base : ∀ mark rest, mark.isDigit = false → digits ≠ '0' :: mark :: rest := by
    rintro mark rest different rfl
    exact ne_of_isDigit (shown mark (by simp)) different rfl
  rw [readNumber?, afterFloat?_of_isDigit shown]
  simp only
  rw [readInteger?, readDigits?_of_isDigit shown none (.inl some_digit)]
  · rfl
  -- No letter behind a zero gives the digits another base.
  · exact fun rest => base 'x' rest rfl
  · exact fun rest => base 'o' rest rfl
  · exact fun rest => base 'b' rest rfl

/-- No quotation begins with a digit. -/
theorem readQuoted?_of_isDigit (digit : char.isDigit) (rest : List Char) :
    readQuoted? (char :: rest) = none := by
  have other : ∀ mark, mark.isDigit = false → char ≠ mark :=
    fun mark different => ne_of_isDigit digit different
  unfold readQuoted?
  simp only
  split <;> simp_all

end Literal

namespace Token

/-- No comment begins with another character than a slash. -/
theorem readComment?_of_ne (different : char ≠ '/') (rest : List Char) :
    readComment? (char :: rest) = none := by
  unfold readComment?
  split <;> simp_all

/-- A token that begins with a digit is a number. -/
theorem read?_of_isDigit (digit : char.isDigit) (rest : List Char) :
    read? (char :: rest) = (Literal.readNumber? (char :: rest)).map fun (number, later) =>
      (literal number, later) := by
  rw [read?, Literal.readQuoted?_of_isDigit digit]
  · exact if_pos digit
  all_goals exact ne_of_isDigit digit rfl

/-- No punctuation begins with a digit. -/
theorem startsMark_of_isDigit (digit : char.isDigit) (rest : List Char) :
    startsMark (char :: rest) = false := by
  have slash : char ≠ '/' := ne_of_isDigit digit rfl
  have others : marks.all fun mark => !mark.isDigit := by decide
  have absent : char ∉ marks := by
    intro member
    have other : !char.isDigit := List.all_eq_true.mp others char member
    rw [digit] at other
    exact absurd other (by decide)
  simp [startsMark, slash, absent]

/-- The tokens of a text are those of its first part and those behind it. -/
theorem readAll?_of_readPart? {tokens : List Token} {rest later : List Char}
    (part : readPart? (char :: rest) = some (tokens, later))
    (shorter : later.length < (char :: rest).length) :
    readAll? (char :: rest) = (readAll? later).map (tokens ++ ·) := by
  conv_lhs => unfold readAll?
  simp only [part, if_pos shorter]

/-- Decimal digits are one literal. -/
theorem readAll?_of_isDigit (shown : ∀ char ∈ digits, char.isDigit) (some_digit : digits ≠ []) :
    readAll? digits = some [literal (.integer (Nat.ofDigitChars 10 digits 0) "")] := by
  match digits with
  | [] => exact absurd rfl some_digit
  | char :: rest =>
    have digit : char.isDigit := shown char List.mem_cons_self
    have part : readPart? (char :: rest) =
        some ([literal (.integer (Nat.ofDigitChars 10 (char :: rest) 0) "")], []) := by
      rw [readPart?, isBlank_of_isDigit digit, readComment?_of_ne (ne_of_isDigit digit rfl),
        read?_of_isDigit digit, Literal.readNumber?_of_isDigit shown some_digit]
      rfl
    rw [readAll?_of_readPart? part (by simp)]
    unfold readAll?
    rfl

/-- A minus sign in front of a digit is a token of its own. -/
theorem readPart?_minus (digit : char.isDigit) (rest : List Char) :
    readPart? ('-' :: char :: rest) = some ([mark '-' false], char :: rest) := by
  have token : read? ('-' :: char :: rest) = some (mark '-' (startsMark (char :: rest)), char :: rest) :=
    rfl
  rw [readPart?, if_neg (by decide), readComment?_of_ne (by decide), token,
    startsMark_of_isDigit digit]
  rfl

/-- The tokens of an integer in decimal are those that spell it as an end. -/
theorem ofText?_toString (value : Int) : ofText? (toString value) = some (End.spelling value) := by
  have shown : ∀ number, ∀ char ∈ Nat.toDigits 10 number, char.isDigit :=
    fun number char member => Nat.isDigit_of_mem_toDigits (by decide) (by decide) member
  have digits : ∀ number, readAll? (Nat.toDigits 10 number) =
      some [literal (.integer number "")] := by
    intro number
    rw [readAll?_of_isDigit (shown number) Nat.toDigits_ne_nil,
      Nat.ofDigitChars_toDigits (by decide) (by decide)]
  rw [Int.toString_eq_repr, Int.repr_eq_if, ofText?, End.spelling]
  by_cases negative : value < 0
  · have magnitude : (-value).toNat = value.natAbs := by omega
    rw [if_neg (by omega), if_pos negative, magnitude, String.toList_append, Nat.toList_repr]
    have first := digits value.natAbs
    have all := shown value.natAbs
    cases listed : Nat.toDigits 10 value.natAbs with
    | nil => exact absurd listed Nat.toDigits_ne_nil
    | cons char rest =>
      rw [listed] at first all
      have part := readPart?_minus (all char List.mem_cons_self) rest
      have spelled : readAll? ('-' :: char :: rest) =
          some [mark '-' false, literal (.integer value.natAbs "")] := by
        rw [readAll?_of_readPart? part (by simp), first]
        rfl
      exact congrArg (Option.filter (nested [])) spelled
  · have magnitude : value.toNat = value.natAbs := by omega
    rw [if_pos (by omega), if_neg negative, magnitude, Nat.toList_repr, digits]
    rfl

end Token

end EnumNames.Declaration
