import EnumNames.Proofs.Signature.Buffer
/-!
# Integers without a cast

What stands between the brackets of a signature is read as it stands if no delimiter is in it, and
then its first byte alone tells whether it is a name. The decimal spelling of an integer holds no
delimiter. If the integer is not negative it begins with a digit, and no name is read. A minus is not
among the bytes that tell an integer: a negative integer without a cast reads as a name, sign and
digits together.
-/
namespace EnumNames.Signature

open Text

/-- An integer in decimal is its sign and the numeral of its magnitude. -/
theorem toString_eq_sign_append (value : Int) :
    toString value = sign value ++ magnitude 10 value.natAbs := by
  rw [Int.toString_eq_repr, Int.repr_eq_if, sign, magnitude]
  by_cases negative : value < 0
  · have natural : (-value).toNat = value.natAbs := by omega
    rw [if_neg (by omega), if_pos negative, natural, Nat.repr]
  · have natural : value.toNat = value.natAbs := by omega
    rw [if_pos (by omega), if_neg negative, natural, Nat.repr, String.empty_append]

/-- In the qualified style a cast shows the integer in decimal behind the parenthesis. -/
theorem castClosing_qualified (value : Int) :
    Style.castClosing .qualified value = ")" ++ toString value := by
  rw [toString_eq_sign_append, ← String.append_assoc]
  rfl

/-- The decimal spelling of an integer is plain, as it is behind a cast. -/
theorem isPlain_toString (value : Int) : IsPlain (bytes (toString value)) := by
  have plain := isPlain_castClosing .qualified value
  rw [castClosing_qualified, bytes_append] at plain
  exact plain.of_append

/-- A numeral in decimal begins with a digit. -/
theorem isInteger_magnitude (number : Nat) : isInteger (magnitude 10 number) = true := by
  have digits : ∀ digit < 10, isDigit (Buffer.digitByte digit) = true := by decide
  cases shown : Nat.toDigits 10 number with
  | nil => exact absurd shown Nat.toDigits_ne_nil
  | cons first rest =>
    have member : first ∈ Nat.toDigits 10 number := by
      rw [shown]
      exact List.mem_cons_self
    obtain ⟨digit, below, same⟩ := exists_digitChar_of_mem (by decide) member
    have form := Buffer.utf8EncodeChar_digitChar (Nat.lt_trans below (by decide))
    rw [isInteger, magnitude, shown, bytes_ofList, List.flatMap_cons, same, form]
    simp only [List.singleton_append, digits digit below, Bool.true_or]

/-- Only an integer that is not negative is told from a name by its first byte. -/
theorem isInteger_toString (value : Int) : isInteger (toString value) = decide (0 ≤ value) := by
  rw [toString_eq_sign_append, sign]
  by_cases negative : value < 0
  · have below : ¬0 ≤ value := Int.not_le.mpr negative
    rw [if_pos negative, decide_eq_false below, isInteger, bytes_append]
    rfl
  · have above : 0 ≤ value := Int.not_lt.mp negative
    rw [if_neg negative, decide_eq_true above, String.empty_append, isInteger_magnitude]

/-- How an integer that stands in a signature of the bracketed style without a cast is read, whatever
its size: one that is not negative is no name, and a negative one is the name that its decimal
spelling is. -/
theorem bare_integer_read (value : Int) :
    decode .bracketed (Style.signature .bracketed (toString value)) =
      .ok (if 0 ≤ value then none else some (toString value)) := by
  have plain := isPlain_toString value
  rw [decode_signature_of_undelimited ⟨plain.balanced, plain.unqualified⟩, isInteger_toString]
  by_cases above : 0 ≤ value
  · rw [if_pos above, decide_eq_true above]
    rfl
  · rw [if_neg above, decide_eq_false above]
    rfl

/-- An integer of 128 bits that stands in a signature without a cast and is taken for a name. -/
theorem bare_negative_named :
    (-5 : Int) ∈ Representation.i128 ∧
      Style.signature .bracketed (toString (-5 : Int)) =
        "auto __cdecl strenum::stringify<-5>(void)" ∧
      decode .bracketed "auto __cdecl strenum::stringify<-5>(void)" = .ok (some "-5") := by
  decide +kernel

end EnumNames.Signature
