import EnumNames.Proofs.Text.Seams
/-!
# Boundaries between characters

A byte offset is a boundary of a text if no character has bytes on either side of it. There is one
in front of every byte below 128 and one behind it, and the last byte of a text has one in front of
it only then. A part with bytes can be taken exactly between two boundaries, and what else is asked
for has one fault.
-/
namespace EnumNames.Text

/-- No character of the text has bytes on either side of the offset, which is in the text or at its
end. -/
abbrev IsBoundary (text : String) (offset : Nat) : Prop := String.Pos.Raw.IsValid text ⟨offset⟩

variable {text : String} {left right : List UInt8} {byte : UInt8} {start stop offset : Nat}

/-- At a boundary a text comes apart into two. -/
theorem isBoundary_iff_exists_append :
    IsBoundary text offset ↔
      ∃ front back, text = front ++ back ∧ front.utf8ByteSize = offset := by
  rw [IsBoundary, String.Pos.Raw.isValid_iff_exists_append]
  simp only [String.Pos.Raw.ext_iff, String.byteIdx_rawEndPos, eq_comm]

/-- A byte below 128 stands between two boundaries. -/
theorem isBoundary_of_ascii (ascii : byte < 128) (cut : bytes text = left ++ byte :: right) :
    IsBoundary text left.length ∧ IsBoundary text (left.length + 1) := by
  obtain ⟨front, char, back, rfl, -, before, behind⟩ := exists_seam ascii cut
  have front_size : front.utf8ByteSize = left.length := by rw [← before, length_bytes]
  have back_size : back.utf8ByteSize = right.length := by rw [← behind, length_bytes]
  have whole := congrArg List.length cut
  rw [length_bytes, String.utf8ByteSize_append, List.length_append, List.length_cons,
    back_size] at whole
  constructor
  · rw [isBoundary_iff_exists_append]
    exact ⟨front, String.singleton char ++ back, by rw [String.append_assoc], front_size⟩
  · rw [isBoundary_iff_exists_append]
    exact ⟨front ++ String.singleton char, back, rfl, by omega⟩

/-- There is a boundary behind bytes that end in one below 128. -/
theorem isBoundary_of_suffix (ascii : byte < 128) (inside : start ≤ text.utf8ByteSize)
    (final : [byte] <:+ (bytes text).take start) : IsBoundary text start := by
  obtain ⟨before, ends⟩ := final
  have cut : bytes text = before ++ byte :: (bytes text).drop start := by
    rw [List.append_cons, ends, List.take_append_drop]
  have length : before.length + 1 = start := by
    have same := congrArg List.length ends
    rw [List.length_append, List.length_singleton, List.length_take, length_bytes] at same
    omega
  rw [← length]
  exact (isBoundary_of_ascii ascii cut).2

/-- A text of one byte is one character, and the byte is below 128. -/
theorem lt_of_bytes_eq_singleton (single : bytes text = [byte]) : byte < 128 := by
  rw [bytes_eq_flatMap] at single
  cases characters : text.toList with
  | nil => simp [characters] at single
  | cons char rest =>
    rw [characters, List.flatMap_cons] at single
    have lengths := congrArg List.length single
    rw [List.length_append, String.length_utf8EncodeChar, List.length_singleton] at lengths
    have positive := char.utf8Size_pos
    have one : char.utf8Size = 1 := by omega
    have small : char.val.toNat ≤ 0x7f := Char.utf8Size_eq_one_iff.mp one
    have form : String.utf8EncodeChar char = [UInt8.ofNat char.val.toNat] := if_pos small
    rw [form, List.singleton_append] at single
    rw [← (List.cons.inj single).1, UInt8.lt_iff_toNat_lt, UInt8.toNat_ofNat']
    exact Nat.lt_of_le_of_lt (Nat.mod_le _ _) (Nat.lt_succ_of_le small)

/-- The last byte of a text is a character by itself exactly if it is below 128. -/
theorem isBoundary_last_iff (last : bytes text = left ++ [byte]) :
    IsBoundary text left.length ↔ byte < 128 := by
  constructor
  · intro boundary
    obtain ⟨front, back, rfl, size⟩ := isBoundary_iff_exists_append.mp boundary
    rw [bytes_append] at last
    have lengths : (bytes front).length = left.length := by rw [length_bytes, size]
    exact lt_of_bytes_eq_singleton (List.append_inj last lengths).2
  · intro ascii
    exact (isBoundary_of_ascii ascii last).1

/-! ## Parts between boundaries -/

/-- Bytes are the form of a text exactly if they are read as one. -/
theorem isValidUTF8_iff_exists_fromUTF8? {array : ByteArray} :
    array.IsValidUTF8 ↔ ∃ part, String.fromUTF8? array = some part := by
  rw [String.fromUTF8?]
  by_cases valid : array.IsValidUTF8
  · simp [valid]
  · simp [valid]

/-- The bytes between two offsets are the form of a text if there are none, or if either offset is a
boundary. -/
theorem exists_fromUTF8?_extract_iff (ordered : start ≤ stop) (inside : stop ≤ text.utf8ByteSize) :
    (∃ part, String.fromUTF8? (text.toByteArray.extract start stop) = some part) ↔
      start = stop ∨ IsBoundary text start ∧ IsBoundary text stop := by
  have valid := String.Pos.Raw.isValidUTF8_extract_iff (s := text) ⟨start⟩ ⟨stop⟩ ordered inside
  rw [String.Pos.Raw.mk.injEq] at valid
  rw [← isValidUTF8_iff_exists_fromUTF8?]
  exact valid

/-- A part is found exactly if the offsets are in order and inside the text, and either the part has
no bytes or no character is split. -/
theorem exists_slice_eq_ok_iff :
    (∃ part, slice text start stop = .ok part) ↔
      start ≤ stop ∧ stop ≤ text.utf8ByteSize ∧
        (start = stop ∨ IsBoundary text start ∧ IsBoundary text stop) := by
  rw [slice]
  by_cases inverted : stop < start
  · have disordered : ¬start ≤ stop := Nat.not_le.mpr inverted
    simp [inverted, disordered]
  by_cases outside : text.utf8ByteSize < stop
  · have beyond : ¬stop ≤ text.utf8ByteSize := Nat.not_le.mpr outside
    rw [if_neg inverted, if_pos outside]
    simp [beyond]
  have ordered : start ≤ stop := Nat.not_lt.mp inverted
  have inside : stop ≤ text.utf8ByteSize := Nat.not_lt.mp outside
  rw [if_neg inverted, if_neg outside, ← exists_fromUTF8?_extract_iff ordered inside]
  cases String.fromUTF8? (text.toByteArray.extract start stop) with
  | none => simp
  | some part => simp [ordered, inside]

/-- What cannot be found between offsets in order and inside the text would split a character. -/
theorem slice_eq_error_iff {fault : Fault} (ordered : start ≤ stop)
    (inside : stop ≤ text.utf8ByteSize) :
    slice text start stop = .error fault ↔
      fault = .splitsCharacter ∧ start ≠ stop ∧
        ¬(IsBoundary text start ∧ IsBoundary text stop) := by
  rw [← not_or, ← exists_fromUTF8?_extract_iff ordered inside, slice,
    if_neg (Nat.not_lt.mpr ordered), if_neg (Nat.not_lt.mpr inside)]
  cases String.fromUTF8? (text.toByteArray.extract start stop) with
  | none => simp [eq_comm]
  | some part => simp

end EnumNames.Text
