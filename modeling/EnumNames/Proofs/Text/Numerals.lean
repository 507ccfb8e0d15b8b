import Mathlib.Data.List.Basic
import Mathlib.Data.List.Induction
/-!
# Numerals

A number is written in a base by one numeral: its digits are those of the base, the letters among
them in lower case, none of them is a zero in front of others, and they stand for the number. This
says what a numeral is without a way to compute it, and there is exactly one.
-/
namespace EnumNames.Text

/-- The digits of the bases up to sixteen in ascending order. -/
def digitChars : List Char :=
  ['0', '1', '2', '3', '4', '5', '6', '7', '8', '9', 'a', 'b', 'c', 'd', 'e', 'f']

/-- The number that digits stand for in a base. -/
def numberOf (base : Nat) (digits : List Char) : Nat :=
  digits.foldl (fun number char => base * number + digitChars.idxOf char) 0

/-- These characters are the numeral of a number in a base. -/
structure IsNumeral (base number : Nat) (digits : List Char) : Prop where
  /-- There is a digit. -/
  nonempty : digits ≠ []
  /-- The base has every digit. -/
  known : ∀ char ∈ digits, char ∈ digitChars.take base
  /-- No zero stands in front of other digits. -/
  leading : digits.head? = some '0' → digits = ['0']
  /-- The digits stand for the number. -/
  value : numberOf base digits = number

variable {base number value digit : Nat} {digits front : List Char} {char : Char}

/-- A digit more at the end is worth its place among the digits. -/
theorem numberOf_concat (base : Nat) (front : List Char) (char : Char) :
    numberOf base (front ++ [char]) = base * numberOf base front + digitChars.idxOf char := by
  rw [numberOf, List.foldl_append]
  rfl

/-- The digits stand in the order of their values. -/
theorem idxOf_digitChar (small : digit < 16) : digitChars.idxOf (Nat.digitChar digit) = digit := by
  have all : ∀ digit < 16, digitChars.idxOf (Nat.digitChar digit) = digit := by decide
  exact all digit small

/-- The digits of a base stand for the numbers below it. -/
theorem mem_take_digitChars_iff (small : base ≤ 16) :
    char ∈ digitChars.take base ↔ ∃ digit < base, char = Nat.digitChar digit := by
  have listed : digitChars = (List.range 16).map Nat.digitChar := by decide
  rw [listed, ← List.map_take, List.take_range, Nat.min_eq_left small, List.mem_map]
  simp only [List.mem_range, eq_comm]

/-- A digit of a number stands for a value below the base. -/
theorem exists_digitChar_of_mem (positive : 1 < base) (member : char ∈ Nat.toDigits base value) :
    ∃ digit < base, char = Nat.digitChar digit := by
  induction value using Nat.strongRecOn with
  | ind value hypothesis =>
    rw [Nat.toDigits_eq_if positive] at member
    split at member
    · next small =>
      exact ⟨value, small, List.mem_singleton.mp member⟩
    · next large =>
      rw [List.mem_append, List.mem_singleton] at member
      rcases member with earlier | last
      · exact hypothesis _ (Nat.div_lt_self (by omega) positive) earlier
      · exact ⟨_, Nat.mod_lt _ (by omega), last⟩

/-- The digits that are computed for a number stand for it. -/
theorem numberOf_toDigits (positive : 1 < base) (small : base ≤ 16) (number : Nat) :
    numberOf base (Nat.toDigits base number) = number := by
  induction number using Nat.strongRecOn with
  | ind number hypothesis =>
    rcases Nat.lt_or_ge number base with below | beyond
    · have digit : digitChars.idxOf (Nat.digitChar number) = number :=
        idxOf_digitChar (Nat.lt_of_lt_of_le below small)
      rw [Nat.toDigits_of_lt_base below, ← List.nil_append [_], numberOf_concat, digit]
      simp [numberOf]
    · have last : number % base < base := Nat.mod_lt number (by omega)
      have digit : digitChars.idxOf (Nat.digitChar (number % base)) = number % base :=
        idxOf_digitChar (Nat.lt_of_lt_of_le last small)
      have earlier := hypothesis (number / base) (Nat.div_lt_self (by omega) positive)
      rw [Nat.toDigits_of_base_le positive beyond, numberOf_concat, earlier, digit]
      exact Nat.div_add_mod number base

/-- The digits that are computed for a number begin with a zero for the number zero only. -/
theorem eq_zero_of_head?_toDigits (positive : 1 < base) (small : base ≤ 16)
    (zero : (Nat.toDigits base number).head? = some '0') : number = 0 := by
  induction number using Nat.strongRecOn with
  | ind number hypothesis =>
    rcases Nat.lt_or_ge number base with below | beyond
    · have digit : digitChars.idxOf (Nat.digitChar number) = number :=
        idxOf_digitChar (Nat.lt_of_lt_of_le below small)
      rw [Nat.toDigits_of_lt_base below, List.head?_cons, Option.some.injEq] at zero
      rw [← digit, zero]
      rfl
    · have quotient : 0 < number / base := Nat.div_pos beyond (by omega)
      rw [Nat.toDigits_of_base_le positive beyond,
        List.head?_append_of_ne_nil _ Nat.toDigits_ne_nil] at zero
      have none := hypothesis (number / base) (Nat.div_lt_self (by omega) positive) zero
      omega

/-- The digits that are computed for a number are its numeral. -/
theorem isNumeral_toDigits (positive : 1 < base) (small : base ≤ 16) (number : Nat) :
    IsNumeral base number (Nat.toDigits base number) where
  nonempty := Nat.toDigits_ne_nil
  known _ member := (mem_take_digitChars_iff small).mpr (exists_digitChar_of_mem positive member)
  leading zero := by
    rw [eq_zero_of_head?_toDigits positive small zero, Nat.toDigits_zero]
  value := numberOf_toDigits positive small number

/-- What stands in front of the last digit of a numeral is a numeral too. -/
theorem IsNumeral.of_concat (numeral : IsNumeral base number (front ++ [char]))
    (more : front ≠ []) : IsNumeral base (numberOf base front) front where
  nonempty := more
  known _ member := numeral.known _ (List.mem_append_left _ member)
  leading zero := by
    -- A numeral that begins with a zero has no digit behind it.
    have whole := numeral.leading (by rwa [List.head?_append_of_ne_nil _ more])
    have length := congrArg List.length whole
    have some_digit := List.length_pos_iff.mpr more
    rw [List.length_append, List.length_singleton, List.length_singleton] at length
    omega
  value := rfl

/-- A numeral has the digits that are computed for its number. -/
theorem IsNumeral.eq_toDigits (positive : 1 < base) (small : base ≤ 16)
    (numeral : IsNumeral base number digits) : digits = Nat.toDigits base number := by
  induction digits using List.reverseRecOn generalizing number with
  | nil => exact absurd rfl numeral.nonempty
  | append_singleton front char hypothesis =>
    have last := numeral.known char (by simp)
    obtain ⟨digit, below, rfl⟩ := (mem_take_digitChars_iff small).mp last
    have value := numeral.value
    rw [numberOf_concat, idxOf_digitChar (Nat.lt_of_lt_of_le below small)] at value
    by_cases alone : front = []
    · subst alone
      have single : number = digit := by
        rw [← value, numberOf, List.foldl_nil, Nat.mul_zero, Nat.zero_add]
      rw [single, Nat.toDigits_of_lt_base below, List.nil_append]
    · have earlier := hypothesis (numeral.of_concat alone)
      have nonzero : numberOf base front ≠ 0 := by
        intro zero
        rw [zero, Nat.toDigits_zero] at earlier
        have whole := numeral.leading (by rw [earlier]; rfl)
        rw [earlier] at whole
        cases whole
      rw [earlier, ← value, ← Nat.toDigits_append_toDigits positive (by omega) below,
        Nat.toDigits_of_lt_base below, ← earlier]

/-- A number has one numeral in a base, the digits that are computed for it. -/
theorem isNumeral_iff (positive : 1 < base) (small : base ≤ 16) :
    IsNumeral base number digits ↔ digits = Nat.toDigits base number := by
  constructor
  · exact IsNumeral.eq_toDigits positive small
  · rintro rfl
    exact isNumeral_toDigits positive small number

end EnumNames.Text
