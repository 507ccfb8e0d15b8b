import EnumNames.Probe
import EnumNames.Proofs.Signature.Paths
import EnumNames.Proofs.Signature.RoundTrip
import EnumNames.Proofs.Text.Numerals
/-!
# Values that no enumerator has

The signature of such a value shows an integer that is cast to the last segment of the name of the
type. That segment holds no qualifier, so the only delimiter left in front of the value is the
parenthesis that opens the cast, or one that the segment itself opens, and either shows an
integer. In the bracketed style this needs the brackets of the segment to balance.
-/
namespace EnumNames.Signature

open Text

/-- The base in which a style writes magnitudes. -/
def Style.base : Style → Nat
  | .bracketed => 16
  | .qualified => 10

/-- Either base has more than one digit. -/
theorem Style.one_lt_base (style : Style) : 1 < style.base := by
  cases style <;> decide

/-- Digits and letters up to the sixth are enough for either base. -/
theorem Style.base_le (style : Style) : style.base ≤ 16 := by
  cases style <;> decide

/-- What a style writes in front of a magnitude to tell its base. -/
def Style.baseMark : Style → String
  | .bracketed => "0x"
  | .qualified => ""

/-- What a cast shows in front of the type. -/
def Style.castOpening : Style → String
  | .bracketed => "(enum "
  | .qualified => "("

/-- What a cast shows behind the type. -/
def Style.castClosing : Style → Int → String
  | .bracketed, value => ")" ++ sign value ++ "0x" ++ magnitude 16 value.natAbs
  | .qualified, value => ")" ++ sign value ++ magnitude 10 value.natAbs

variable {style : Style} {type : String} {value : Int}

/-- A cast shows the type between two texts. -/
theorem cast_eq (style : Style) (type : String) (value : Int) :
    style.cast type value = style.castOpening ++ type ++ style.castClosing value := by
  cases style <;>
    simp only [Style.cast, Style.castOpening, Style.castClosing, String.append_assoc]

/-- Behind the type a cast shows a parenthesis, the sign, the mark and the digits. -/
theorem castClosing_eq (style : Style) (value : Int) :
    style.castClosing value =
      ")" ++ sign value ++ style.baseMark ++ magnitude style.base value.natAbs := by
  cases style with
  | bracketed => rfl
  | qualified => rw [Style.baseMark, String.append_empty, Style.castClosing, Style.base]

/-- The bytes behind the type begin with that of the parenthesis. -/
theorem bytes_castClosing (style : Style) (value : Int) :
    bytes (style.castClosing value) =
      41 :: (bytes (sign value) ++ (bytes style.baseMark ++
        bytes (magnitude style.base value.natAbs))) := by
  simp only [castClosing_eq, bytes_append, List.append_assoc]
  rfl

/-- The bytes of the signature of a value, part by part. -/
theorem bytes_undeclared (style : Style) (type : String) (value : Int) :
    bytes (style.undeclared type value) =
      bytes style.opening ++ (bytes style.castOpening ++ (bytes (lastSegment type) ++
        41 :: (bytes (sign value) ++ (bytes style.baseMark ++
          (bytes (magnitude style.base value.natAbs) ++ bytes style.closing))))) := by
  simp only [Style.undeclared, Style.signature, cast_eq, bytes_append, bytes_castClosing,
    List.append_assoc, List.cons_append]

/-- The digits of a number are decimal digits and letters. -/
theorem isAlphanum_of_mem_magnitude {base number : Nat} {char : Char} (positive : 1 < base)
    (digits : base ≤ 16) (member : char ∈ (magnitude base number).toList) : char.isAlphanum := by
  rw [magnitude, String.toList_ofList] at member
  obtain ⟨digit, small, rfl⟩ := exists_digitChar_of_mem positive member
  have shown : ∀ digit < 16, (Nat.digitChar digit).isAlphanum := by decide
  exact shown digit (by omega)

/-- Behind the type a cast shows a parenthesis, perhaps a minus sign, and digits and letters. -/
theorem mem_castClosing {char : Char} (member : char ∈ (style.castClosing value).toList) :
    char = ')' ∨ char = '-' ∨ char.isAlphanum := by
  have minus : char ∈ (sign value).toList → char = '-' := by
    intro member
    unfold sign at member
    split at member
    · simpa using member
    · simp at member
  rw [castClosing_eq] at member
  simp only [String.toList_append, List.mem_append] at member
  rcases member with ((first | signed) | mark) | digit
  · exact .inl (by simpa using first)
  · exact .inr (.inl (minus signed))
  · have shown : style.baseMark.toList.all Char.isAlphanum := by
      cases style <;> decide
    exact .inr (.inr (List.all_eq_true.mp shown char mark))
  · exact .inr (.inr (isAlphanum_of_mem_magnitude style.one_lt_base style.base_le digit))

/-- No colon and no angle bracket stands behind the type in a cast. -/
theorem not_mem_castClosing {byte : UInt8}
    (special : byte = colon ∨ byte = openAngle ∨ byte = closeAngle) :
    byte ∉ bytes (style.castClosing value) := by
  have ascii : byte < 128 := by
    rcases special with rfl | rfl | rfl <;> decide
  refine not_mem_bytes ascii fun char member same => ?_
  have shown := mem_castClosing member
  rcases special with rfl | rfl | rfl
  · obtain rfl : char = ':' := Char.toNat_inj.mp same
    exact absurd shown (by decide)
  · obtain rfl : char = '<' := Char.toNat_inj.mp same
    exact absurd shown (by decide)
  · obtain rfl : char = '>' := Char.toNat_inj.mp same
    exact absurd shown (by decide)

/-- What stands behind the type in a cast is plain. -/
theorem isPlain_castClosing (style : Style) (value : Int) :
    IsPlain (bytes (style.castClosing value)) where
  colons := not_mem_castClosing (.inl rfl)
  opening := not_mem_castClosing (.inr (.inl rfl))
  closing := not_mem_castClosing (.inr (.inr rfl))

/-- A cast to the last segment of a path holds no qualifier. -/
theorem cast_unqualified (style : Style) (path : String) (value : Int) :
    ¬[colon, colon] <:+: bytes (style.cast (lastSegment path) value) := by
  have opening : ¬[colon, colon] <:+: bytes style.castOpening ∧
      ¬[colon] <:+ bytes style.castOpening := by
    cases style <;> decide
  have closing : colon ∉ bytes (style.castClosing value) := (isPlain_castClosing style value).colons
  rw [cast_eq, bytes_append, bytes_append, pair_infix_append_iff, pair_infix_append_iff]
  intro pair
  rcases pair with (first | segment | ⟨seam, -⟩) | last | ⟨-, seam⟩
  · exact opening.1 first
  · exact lastSegment_unqualified path segment
  · exact opening.2 seam
  · exact closing (last.mem (by simp))
  · exact closing (seam.mem (by simp))

/-- Brackets balance in a cast if they do in the type. -/
theorem cast_balanced (style : Style) (value : Int) (balanced : Balanced (bytes type)) :
    Balanced (bytes (style.cast type value)) := by
  have opening : Balanced (bytes style.castOpening) := by
    cases style <;> decide
  have closing : Balanced (bytes (style.castClosing value)) :=
    (isPlain_castClosing style value).balanced
  rw [cast_eq, bytes_append, bytes_append]
  exact (opening.append balanced).append closing

/-- A text that begins with a parenthesis shows an integer. -/
theorem isInteger_of_parenthesis {segment : String} (opened : [parenthesis] <+: bytes segment) :
    isInteger segment = true := by
  obtain ⟨rest, whole⟩ := opened
  rw [isInteger, ← whole]
  rfl

/-- A cast begins with a parenthesis. -/
theorem parenthesis_prefix_cast (style : Style) (type : String) (value : Int) :
    [parenthesis] <+: bytes (style.cast type value) := by
  rw [cast_eq, bytes_append, bytes_append, List.append_assoc]
  cases style with
  | bracketed => exact ⟨_, rfl⟩
  | qualified => exact ⟨_, rfl⟩

/-- In the bracketed style a cast to a segment with balanced brackets shows an integer: no delimiter
is in the cast, and it begins with a parenthesis. -/
theorem decode_undeclared_bracketed (balanced : Balanced (bytes (lastSegment type))) :
    decode .bracketed (Style.undeclared .bracketed type value) = .ok none := by
  have undelimited : Style.Undelimited .bracketed
      (bytes (Style.cast .bracketed (lastSegment type) value)) :=
    ⟨cast_balanced .bracketed value balanced,
      unqualified_of_not_infix (cast_unqualified .bracketed type value)⟩
  have opened := parenthesis_prefix_cast .bracketed (lastSegment type) value
  rw [Style.undeclared, decode_signature_of_undelimited undelimited,
    isInteger_of_parenthesis opened]
  rfl

/-- Whatever the name of the type, a cast in the qualified style shows an integer: from the last
separator on, the signature begins with a parenthesis. -/
theorem decode_undeclared_qualified :
    decode .qualified (Style.undeclared .qualified type value) = .ok none := by
  have segment := parenthesis_prefix_cast .qualified (lastSegment type) value
  have unqualified := cast_unqualified .qualified type value
  have opened : Separates (bytes (Style.opening .qualified))
      (bytes (Style.cast .qualified (lastSegment type) value)) := .inr ⟨by decide, segment⟩
  obtain ⟨inner, rest, whole, parts, greatest⟩ := exists_isGreatest_splitsAt opened
  rcases parts with qualifier | ⟨blank, parenthesis_first⟩
  · -- The opening ends in a space, so both colons would be in the cast.
    exfalso
    rcases pair_suffix_append qualifier with rfl | ⟨-, last⟩ | final
    · exact absurd qualifier (by decide)
    · exact absurd last (by decide)
    · rw [whole] at unqualified
      exact unqualified (final.isInfix.trans (List.prefix_append _ _).isInfix)
  · -- The space is a character, so the signature comes apart into texts behind it.
    obtain ⟨left, ends⟩ := blank
    have bytes_whole : bytes (Style.opening .qualified ++
        Style.cast .qualified (lastSegment type) value) = left ++ space :: rest := by
      rw [bytes_append, whole, ← List.append_assoc, ← ends, List.append_assoc]
      rfl
    obtain ⟨front, char, back, cut, -, -, behind⟩ := exists_seam (by decide) bytes_whole
    have before : bytes (front ++ String.singleton char) =
        bytes (Style.opening .qualified) ++ inner := by
      have joined := congrArg bytes cut
      rw [bytes_append, bytes_append _ back, behind, whole, ← List.append_assoc] at joined
      exact (List.append_cancel_right joined).symm
    rw [whole, ← List.append_assoc, ← before, ← behind] at greatest
    rw [← behind] at parenthesis_first
    rw [Style.undeclared, decode_signature_of_isGreatest cut greatest,
      isInteger_of_parenthesis parenthesis_first]
    rfl

/-- The style reads the cast to a type as such: always in the qualified style, and in the bracketed
one if the brackets of the last segment balance. -/
theorem decode_undeclared
    (balanced : style = .bracketed → Balanced (bytes (lastSegment type))) :
    decode style (style.undeclared type value) = .ok none := by
  cases style with
  | bracketed => exact decode_undeclared_bracketed (balanced rfl)
  | qualified => exact decode_undeclared_qualified

/-! ## Length -/

/-- A numeral takes as many bytes as it has digits. -/
theorem utf8ByteSize_magnitude_le_iff {number places : Nat} (style : Style)
    (occupied : 0 < places) :
    (magnitude style.base number).utf8ByteSize ≤ places ↔ number < style.base ^ places := by
  have single : ∀ char ∈ Nat.toDigits style.base number,
      (String.utf8EncodeChar char).length = 1 := by
    intro char member
    obtain ⟨digit, below, shown⟩ := exists_digitChar_of_mem style.one_lt_base member
    have one : ∀ digit < 16, (String.utf8EncodeChar (Nat.digitChar digit)).length = 1 := by decide
    rw [shown]
    exact one digit (Nat.lt_of_lt_of_le below style.base_le)
  have length : (magnitude style.base number).utf8ByteSize =
      (Nat.toDigits style.base number).length := by
    rw [← length_bytes, magnitude, bytes_ofList, List.length_flatMap, List.map_congr_left single,
      List.map_const', List.sum_replicate_nat, Nat.mul_one]
  rw [length]
  exact Nat.length_toDigits_le_iff style.one_lt_base occupied

/-- A minus sign takes one byte. -/
theorem utf8ByteSize_sign (value : Int) :
    (sign value).utf8ByteSize = if value < 0 then 1 else 0 := by
  by_cases negative : value < 0
  · rw [sign, if_pos negative, if_pos negative]
    decide
  · rw [sign, if_neg negative, if_neg negative]
    decide

/-- The greatest magnitude of a value of 128 bits is that of the least value. -/
theorem natAbs_le_of_mem_i128 (inside : value ∈ Representation.i128) :
    value.natAbs ≤ 2 ^ 127 := by
  have low : -2 ^ 127 ≤ value := inside.1
  have high : value ≤ 2 ^ 127 - 1 := inside.2
  omega

/-- The longest last segment in bytes with which the signature of every value of 128 bits fits. -/
def Style.room : Style → Nat
  | .bracketed => 175
  | .qualified => 158

/-- The number of digits of the greatest magnitude of 128 bits. -/
def Style.places : Style → Nat
  | .bracketed => 32
  | .qualified => 39

/-- The magnitude of a value of 128 bits has no more digits than the greatest one. -/
theorem utf8ByteSize_magnitude_le (style : Style) (inside : value ∈ Representation.i128) :
    (magnitude style.base value.natAbs).utf8ByteSize ≤ style.places := by
  have small := natAbs_le_of_mem_i128 inside
  have places : 0 < style.places ∧ 2 ^ 127 < style.base ^ style.places := by
    cases style <;> decide
  rw [utf8ByteSize_magnitude_le_iff style places.1]
  exact Nat.lt_of_le_of_lt small places.2

/-- The bytes of the signature of a value: those of the last segment of the type, of the sign and of
the digits, and what the style writes around them. -/
theorem utf8ByteSize_undeclared_add (style : Style) (type : String) (value : Int) :
    (style.undeclared type value).utf8ByteSize + style.room + style.places + 1 =
      capacity + (lastSegment type).utf8ByteSize + (sign value).utf8ByteSize +
        (magnitude style.base value.natAbs).utf8ByteSize := by
  have frame : style.opening.utf8ByteSize + style.castOpening.utf8ByteSize + 1 +
      style.baseMark.utf8ByteSize + style.closing.utf8ByteSize + style.room + style.places + 1 =
        capacity := by
    cases style <;> decide
  have parts := congrArg List.length (bytes_undeclared style type value)
  simp only [List.length_cons, List.length_append, length_bytes] at parts
  omega

/-- With a last segment for which the style has room, the signature of every value of 128 bits
fits. -/
theorem utf8ByteSize_undeclared_le (style : Style) (inside : value ∈ Representation.i128)
    (short : (lastSegment type).utf8ByteSize ≤ style.room) :
    (style.undeclared type value).utf8ByteSize ≤ capacity := by
  have exact := utf8ByteSize_undeclared_add style type value
  have digits := utf8ByteSize_magnitude_le style inside
  have minus := utf8ByteSize_sign value
  split at minus <;> omega

end EnumNames.Signature
