import EnumNames.Build
import EnumNames.Proofs.Text.Seams
import Mathlib.Data.List.TakeWhile
/-!
# Which texts give a ceiling

A text that gives a ceiling is a decimal numeral with any blanks in front of it and behind it. Its
zeros in front count for nothing, however many they are. While the digits are read the number only
grows, so a check on the way fails only if the number in the end is no ceiling either.
-/
namespace EnumNames.Ceiling

open Text

/-- The blanks that may surround a numeral: space, tab, line feed, form feed, carriage return. -/
def blanks : List Char := [' ', '\t', '\n', '\x0c', '\r']

/-- A text spells a number by decimal digits, at least one of them, between any blanks. -/
inductive Spells : String → Nat → Prop
  /-- The digits stand for the number, and what surrounds them is blank. -/
  | between {front digits back : List Char} (before : ∀ char ∈ front, char ∈ blanks)
      (some_digit : digits ≠ []) (shown : ∀ char ∈ digits, char.isDigit)
      (behind : ∀ char ∈ back, char ∈ blanks) :
      Spells (String.ofList (front ++ (digits ++ back))) (Nat.ofDigitChars 10 digits 0)

/-- The number that the bytes of decimal digits stand for behind those of a number. -/
def worth (value : Nat) (digits : List UInt8) : Nat :=
  digits.foldl (fun number byte => 10 * number + (byte.toNat - 48)) value

variable {char : Char} {characters : List Char} {text : String} {number value : Nat}
  {byte : UInt8} {front digits back rest : List UInt8}

/-! ## Digits -/

/-- More digits never make a number smaller. -/
theorem le_worth (value : Nat) (digits : List UInt8) : value ≤ worth value digits := by
  induction digits generalizing value with
  | nil => exact Nat.le_refl value
  | cons byte rest hypothesis =>
    have longer := hypothesis (10 * value + (byte.toNat - 48))
    have grown : value ≤ 10 * value + (byte.toNat - 48) := by omega
    exact Nat.le_trans grown longer

/-- A digit is taken in if the number with it is a ceiling: without it the number moved by one place
is no greater, so the first check fails for no number that passes the second. -/
theorem readDigits?_cons (value : Nat) (byte : UInt8) (rest : List UInt8) :
    readDigits? value (byte :: rest) =
      if isDigit byte ∧ 10 * value + (byte.toNat - 48) ≤ greatest then
        readDigits? (10 * value + (byte.toNat - 48)) rest
      else none := by
  rw [readDigits?]
  by_cases digit : isDigit byte
  · rw [if_pos digit]
    by_cases fits : 10 * value + (byte.toNat - 48) ≤ greatest
    · have moved : 10 * value ≤ greatest := by omega
      simp only [checked?, if_pos moved, Option.bind_eq_bind, Option.bind_some, if_pos fits,
        if_pos (And.intro digit fits)]
    · have unread : ¬(isDigit byte ∧ 10 * value + (byte.toNat - 48) ≤ greatest) :=
        fun both => fits both.2
      rw [if_neg unread]
      by_cases moved : 10 * value ≤ greatest
      · simp only [checked?, if_pos moved, Option.bind_eq_bind, Option.bind_some, if_neg fits,
          Option.bind_none]
      · simp only [checked?, if_neg moved, Option.bind_eq_bind, Option.bind_none]
  · have unread : ¬(isDigit byte ∧ 10 * value + (byte.toNat - 48) ≤ greatest) :=
      fun both => digit both.1
    rw [if_neg digit, if_neg unread]

/-- Bytes are read as a number exactly if they are digits and the number that they stand for in the
end is a ceiling. -/
theorem readDigits?_eq_some_iff (fits : value ≤ greatest) :
    readDigits? value digits = some number ↔
      (∀ byte ∈ digits, isDigit byte) ∧ worth value digits = number ∧ number ≤ greatest := by
  induction digits generalizing value with
  | nil =>
    have same : worth value [] = value := rfl
    rw [readDigits?, Option.some.injEq, same]
    constructor
    · rintro rfl
      exact ⟨by simp, rfl, fits⟩
    · rintro ⟨-, equal, -⟩
      exact equal
  | cons byte rest hypothesis =>
    have longer : worth value (byte :: rest) = worth (10 * value + (byte.toNat - 48)) rest := rfl
    rw [readDigits?_cons, longer, List.forall_mem_cons]
    by_cases taken : isDigit byte ∧ 10 * value + (byte.toNat - 48) ≤ greatest
    · rw [if_pos taken, hypothesis taken.2, and_assoc]
      simp only [taken.1, true_and]
    · rw [if_neg taken]
      constructor
      · intro read
        cases read
      · rintro ⟨⟨digit, -⟩, equal, small⟩
        have grown := le_worth (10 * value + (byte.toNat - 48)) rest
        exact absurd ⟨digit, by omega⟩ taken

/-! ## Blanks -/

/-- A blank is below 128. -/
theorem byte_lt_of_isBlank (blank : isBlank byte) : byte < 128 := by
  simp only [isBlank, space, Bool.or_eq_true, beq_iff_eq] at blank
  rcases blank with (((rfl | rfl) | rfl) | rfl) | rfl <;> decide

/-- A digit is below 128. -/
theorem byte_lt_of_isDigit (digit : isDigit byte) : byte < 128 := by
  rw [isDigit, Bool.and_eq_true, decide_eq_true_eq, decide_eq_true_eq] at digit
  exact UInt8.lt_of_le_of_lt digit.2 (by decide)

/-- A digit is no blank. -/
theorem not_isBlank_of_isDigit (digit : isDigit byte) : ¬isBlank byte := by
  rw [isDigit, Bool.and_eq_true, decide_eq_true_eq, decide_eq_true_eq, UInt8.le_iff_toNat_le,
    UInt8.le_iff_toNat_le] at digit
  have code : 48 ≤ byte.toNat := digit.1
  rintro blank
  simp only [isBlank, space, Bool.or_eq_true, beq_iff_eq] at blank
  rcases blank with (((rfl | rfl) | rfl) | rfl) | rfl <;> exact absurd code (by decide)

/-- Blanks in front of bytes that do not begin with one are left out. -/
theorem dropWhile_isBlank_append (before : ∀ byte ∈ front, isBlank byte)
    (shown : ∀ byte ∈ digits, isDigit byte) (some_digit : digits ≠ []) :
    (front ++ (digits ++ back)).dropWhile isBlank = digits ++ back := by
  rw [List.dropWhile_append_of_pos before]
  cases digits with
  | nil => exact absurd rfl some_digit
  | cons first later =>
    have unblank := not_isBlank_of_isDigit (shown first List.mem_cons_self)
    exact List.dropWhile_cons_of_neg unblank

/-- What is left of digits between blanks is the digits. -/
theorem trim_of_digits (before : ∀ byte ∈ front, isBlank byte)
    (some_digit : digits ≠ []) (shown : ∀ byte ∈ digits, isDigit byte)
    (behind : ∀ byte ∈ back, isBlank byte) : trim (front ++ (digits ++ back)) = digits := by
  have reversed : (digits ++ back).reverse = back.reverse ++ (digits.reverse ++ []) := by simp
  rw [trim, dropWhile_isBlank_append before shown some_digit, reversed,
    dropWhile_isBlank_append]
  · simp
  · intro byte member
    exact behind byte (List.mem_reverse.mp member)
  · intro byte member
    exact shown byte (List.mem_reverse.mp member)
  · exact fun none => some_digit (List.reverse_eq_nil_iff.mp none)

/-- What is left of bytes stands between blanks. -/
theorem exists_eq_append_trim (bytes : List UInt8) :
    ∃ front back, bytes = front ++ (trim bytes ++ back) ∧ (∀ byte ∈ front, isBlank byte) ∧
      ∀ byte ∈ back, isBlank byte := by
  let later := bytes.dropWhile isBlank
  refine ⟨bytes.takeWhile isBlank, (later.reverse.takeWhile isBlank).reverse, ?_, ?_, ?_⟩
  · have split : trim bytes ++ (later.reverse.takeWhile isBlank).reverse = later := by
      rw [trim, ← List.reverse_append, List.takeWhile_append_dropWhile, List.reverse_reverse]
    rw [split, List.takeWhile_append_dropWhile]
  · exact fun byte member => List.mem_takeWhile_imp member
  · intro byte member
    exact List.mem_takeWhile_imp (List.mem_reverse.mp member)

/-- A ceiling is read from a text exactly if its bytes are digits between blanks, and the number
that the digits stand for is a ceiling. -/
theorem read?_eq_some_iff_bytes :
    read? text = some number ↔
      ∃ front digits back, bytes text = front ++ (digits ++ back) ∧
        (∀ byte ∈ front, isBlank byte) ∧ digits ≠ [] ∧ (∀ byte ∈ digits, isDigit byte) ∧
        (∀ byte ∈ back, isBlank byte) ∧ worth 0 digits = number ∧ number ≤ greatest := by
  have read : read? text =
      if trim (bytes text) = [] then none else readDigits? 0 (trim (bytes text)) := by
    rw [read?]
    split <;> simp_all
  have least : 0 ≤ greatest := Nat.zero_le greatest
  rw [read]
  constructor
  · intro found
    obtain ⟨front, back, whole, before, behind⟩ := exists_eq_append_trim (bytes text)
    by_cases none : trim (bytes text) = []
    · rw [if_pos none] at found
      cases found
    · rw [if_neg none, readDigits?_eq_some_iff least] at found
      exact ⟨front, trim (bytes text), back, whole, before, none, found.1, behind, found.2⟩
  · rintro ⟨front, digits, back, whole, before, some_digit, shown, behind, value⟩
    rw [whole, trim_of_digits before some_digit shown behind, if_neg some_digit,
      readDigits?_eq_some_iff least]
    exact ⟨shown, value⟩

/-! ## Characters and their bytes -/

/-- The byte of a character below 128 has the number of the character. -/
theorem toNat_toUInt8 (ascii : char.toNat < 128) : char.toUInt8.toNat = char.toNat :=
  Nat.mod_eq_of_lt (Nat.lt_trans ascii (by decide))

/-- The bytes of decimal digits are those that are read. -/
theorem isDigit_toUInt8_iff (ascii : char.toNat < 128) :
    isDigit char.toUInt8 ↔ char.isDigit := by
  have code := toNat_toUInt8 ascii
  rw [isDigit, Char.isDigit, Bool.and_eq_true, Bool.and_eq_true, decide_eq_true_eq,
    decide_eq_true_eq, decide_eq_true_eq, decide_eq_true_eq, UInt8.le_iff_toNat_le,
    UInt8.le_iff_toNat_le, code]
  exact Iff.rfl

/-- The bytes of blanks are those that are left out. -/
theorem isBlank_toUInt8_iff (ascii : char.toNat < 128) :
    isBlank char.toUInt8 ↔ char ∈ blanks := by
  have one (other : Char) (small : other.toNat < 128) :
      char.toUInt8 = other.toUInt8 ↔ char = other := by
    rw [← UInt8.toNat_inj, toNat_toUInt8 ascii, toNat_toUInt8 small, Char.toNat_inj]
  have space_iff : char.toUInt8 = space ↔ char = ' ' := one ' ' (by decide)
  have tab_iff : char.toUInt8 = 9 ↔ char = '\t' := one '\t' (by decide)
  have line_iff : char.toUInt8 = 10 ↔ char = '\n' := one '\n' (by decide)
  have form_iff : char.toUInt8 = 12 ↔ char = '\x0c' := one '\x0c' (by decide)
  have return_iff : char.toUInt8 = 13 ↔ char = '\r' := one '\r' (by decide)
  simp only [isBlank, blanks, Bool.or_eq_true, beq_iff_eq, space_iff, tab_iff, line_iff, form_iff,
    return_iff, List.mem_cons, List.not_mem_nil, or_false, or_assoc]

/-- A blank is below 128. -/
theorem lt_of_mem_blanks (blank : char ∈ blanks) : char.toNat < 128 := by
  have all : blanks.all (fun char => char.toNat < 128) = true := by decide
  exact of_decide_eq_true (List.all_eq_true.mp all char blank)

/-- A decimal digit is below 128. -/
theorem lt_of_isDigit (digit : char.isDigit) : char.toNat < 128 := by
  rw [Char.isDigit, Bool.and_eq_true, decide_eq_true_eq, decide_eq_true_eq] at digit
  exact Nat.lt_of_le_of_lt digit.2 (by decide)

/-- Bytes of characters stand for the number that the characters stand for. -/
theorem worth_map (ascii : ∀ char ∈ characters, char.toNat < 128) (value : Nat) :
    worth value (characters.map Char.toUInt8) = Nat.ofDigitChars 10 characters value := by
  induction characters generalizing value with
  | nil => rfl
  | cons char rest hypothesis =>
    obtain ⟨first, later⟩ := List.forall_mem_cons.mp ascii
    rw [Nat.ofDigitChars_cons, ← hypothesis later, ← toNat_toUInt8 first]
    rfl

/-- A number that is spelled, and is a ceiling, is read. -/
theorem read?_of_spells (spelled : Spells text number) (fits : number ≤ greatest) :
    read? text = some number := by
  cases spelled with
  | @between front digits back before some_digit shown behind =>
    have ascii : ∀ char ∈ front ++ (digits ++ back), char.toNat < 128 := by
      simp only [List.mem_append]
      rintro char (blank | digit | blank)
      · exact lt_of_mem_blanks (before char blank)
      · exact lt_of_isDigit (shown char digit)
      · exact lt_of_mem_blanks (behind char blank)
    have blank (characters : List Char) (all : ∀ char ∈ characters, char ∈ blanks) :
        ∀ byte ∈ characters.map Char.toUInt8, isBlank byte := by
      refine List.forall_mem_map.mpr fun char member => ?_
      have found := all char member
      exact (isBlank_toUInt8_iff (lt_of_mem_blanks found)).mpr found
    refine read?_eq_some_iff_bytes.mpr ⟨front.map Char.toUInt8, digits.map Char.toUInt8,
      back.map Char.toUInt8, ?_, blank front before, ?_, ?_, blank back behind, ?_, fits⟩
    · rw [bytes_ofList_of_lt ascii, List.map_append, List.map_append]
    · exact fun none => some_digit (List.map_eq_nil_iff.mp none)
    · refine List.forall_mem_map.mpr fun char member => ?_
      have digit := shown char member
      exact (isDigit_toUInt8_iff (lt_of_isDigit digit)).mpr digit
    · exact worth_map (fun char member => lt_of_isDigit (shown char member)) 0

/-- A number that is read is spelled. -/
theorem spells_of_read? (read : read? text = some number) : Spells text number := by
  obtain ⟨front, digits, back, whole, before, some_digit, shown, behind, value, -⟩ :=
    read?_eq_some_iff_bytes.mp read
  have ascii : ∀ char ∈ text.toList, char.toNat < 128 := by
    apply toNat_lt_of_bytes
    rw [whole]
    simp only [List.mem_append]
    rintro byte (blank | digit | blank)
    · exact byte_lt_of_isBlank (before byte blank)
    · exact byte_lt_of_isDigit (shown byte digit)
    · exact byte_lt_of_isBlank (behind byte blank)
  have mapped : text.toList.map Char.toUInt8 = front ++ (digits ++ back) := by
    rw [← whole, ← bytes_ofList_of_lt ascii, String.ofList_toList]
  obtain ⟨front, later, split, rfl, same⟩ := List.map_eq_append_iff.mp mapped
  obtain ⟨digits, back, rfl, rfl, rfl⟩ := List.map_eq_append_iff.mp same
  rw [split] at ascii
  simp only [List.forall_mem_append] at ascii
  obtain ⟨first, middle, last⟩ := ascii
  rw [worth_map middle] at value
  rw [← String.ofList_toList (s := text), split, ← value]
  refine .between ?_ ?_ ?_ ?_
  · intro char member
    exact (isBlank_toUInt8_iff (first char member)).mp (List.forall_mem_map.mp before char member)
  · exact fun none => some_digit (List.map_eq_nil_iff.mpr none)
  · intro char member
    exact (isDigit_toUInt8_iff (middle char member)).mp (List.forall_mem_map.mp shown char member)
  · intro char member
    exact (isBlank_toUInt8_iff (last char member)).mp (List.forall_mem_map.mp behind char member)

/-- The decimal spelling of a number spells it. -/
theorem spells_toString (number : Nat) : Spells (toString number) number := by
  have shown : ∀ char ∈ Nat.toDigits 10 number, char.isDigit :=
    fun _ => Nat.isDigit_of_mem_toDigits (by decide) (by decide)
  have spelled := @Spells.between [] (Nat.toDigits 10 number) [] (by simp) Nat.toDigits_ne_nil shown
    (by simp)
  rw [Nat.ofDigitChars_ten_toDigits, List.nil_append, List.append_nil] at spelled
  rw [Nat.toString_eq_ofList_toDigits]
  exact spelled

/-- The texts that are read are those that spell a ceiling. -/
theorem read?_eq_some_iff :
    read? text = some number ↔ Spells text number ∧ number ≤ greatest := by
  constructor
  · intro read
    obtain ⟨-, -, -, -, -, -, -, -, -, fits⟩ := read?_eq_some_iff_bytes.mp read
    exact ⟨spells_of_read? read, fits⟩
  · rintro ⟨spelled, fits⟩
    exact read?_of_spells spelled fits

/-- A text gives a ceiling exactly if it spells one: decimal digits with any blanks in front of them
and behind them, for a number that is below 2^64. No check on the way refuses a number that is a
ceiling, so the decimal spelling of every ceiling gives it. -/
theorem given_iff_spelled :
    (∀ text number, read? text = some number ↔ Spells text number ∧ number ≤ greatest) ∧
      ∀ number ≤ greatest, read? (toString number) = some number := by
  refine ⟨fun text number => read?_eq_some_iff, fun number fits => ?_⟩
  exact read?_eq_some_iff.mpr ⟨spells_toString number, fits⟩

/-- The greatest ceiling is spelled behind zeros and between blanks, and by its decimal spelling; no
ceiling is spelled by the digits of the number after it. -/
theorem given_iff_spelled_greatest :
    Spells "\t\x0c 00018446744073709551615\r\n" greatest ∧
      (greatest ≤ greatest ∧ read? (toString greatest) = some greatest) ∧
      ∀ number ≤ greatest, ¬Spells "18446744073709551616" number := by
  obtain ⟨given, spelled⟩ := given_iff_spelled
  have read : read? "\t\x0c 00018446744073709551615\r\n" = some greatest := by decide
  have unread : read? "18446744073709551616" = none := by decide
  refine ⟨((given _ _).mp read).1, ⟨Nat.le_refl greatest, spelled greatest (Nat.le_refl greatest)⟩,
    ?_⟩
  intro number fits spells
  have found := (given _ _).mpr ⟨spells, fits⟩
  rw [unread] at found
  cases found

end EnumNames.Ceiling

namespace EnumNames.Build

variable {style : Signature.Style} {given : Option String} {build : Build}

end EnumNames.Build
