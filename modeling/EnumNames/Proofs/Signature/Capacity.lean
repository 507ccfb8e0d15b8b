import EnumNames.Proofs.Probe
import EnumNames.Proofs.Signature.Buffer
/-!
# What fits into the room for a signature

The signature of a value that no enumerator has is the text of its parts, with the numeral of the
magnitude among them, and it is refused exactly if that text is longer than the room. What is
rendered as a whole and what is written byte after byte come to the same. How long the last segment
of a type can be is decided by the least value, whose signature is the longest.
-/
namespace EnumNames.Signature

open Text

variable {style : Style} {type : String} {value : Int}

/-- The signature shows the numeral of the magnitude. -/
theorem undeclared_eq_parts (style : Style) (type : String) (value : Int) :
    style.undeclared type value =
      style.opening ++ style.castOpening ++ lastSegment type ++ ")" ++ sign value ++
        style.baseMark ++ String.ofList (Nat.toDigits style.base value.natAbs) ++ style.closing := by
  rw [← bytes_inj, bytes_undeclared]
  simp only [bytes_append, List.append_assoc]
  rfl

/-- A magnitude has one numeral in the base of the style. -/
theorem isNumeral_base_iff {number : Nat} {digits : List Char} :
    IsNumeral style.base number digits ↔ digits = Nat.toDigits style.base number :=
  isNumeral_iff style.one_lt_base style.base_le

/-- A signature that does not fit is not rendered. -/
theorem render_of_beyond (beyond : capacity < (style.undeclared type value).utf8ByteSize) :
    render style type value = .error .overCapacity := by
  have unfit : ¬(style.undeclared type value).utf8ByteSize ≤ capacity := Nat.not_le.mpr beyond
  rw [render]
  exact if_neg unfit

/-- The least value of 128 bits has a sign and as many digits as any, so with a longer last segment
its signature does not fit. -/
theorem capacity_lt_utf8ByteSize_least (long : style.room < (lastSegment type).utf8ByteSize) :
    capacity < (style.undeclared type Representation.i128.least).utf8ByteSize := by
  have exact := utf8ByteSize_undeclared_add style type Representation.i128.least
  have minus : (sign Representation.i128.least).utf8ByteSize = 1 := by decide
  have digits : style.places ≤
      (magnitude style.base Representation.i128.least.natAbs).utf8ByteSize := by
    have fewer : 0 < style.places - 1 ∧
        style.base ^ (style.places - 1) ≤ Representation.i128.least.natAbs := by
      cases style <;> decide
    by_contra short
    have places : (magnitude style.base Representation.i128.least.natAbs).utf8ByteSize ≤
        style.places - 1 := by omega
    rw [utf8ByteSize_magnitude_le_iff style fewer.1] at places
    exact absurd places (Nat.not_lt.mpr fewer.2)
  omega

/-- The signature of a value that no enumerator has, exactly. There is one numeral of the magnitude,
and with it one text. If the text fits it is rendered, and written byte after byte it fills the room
up to its length and is read back; otherwise either ends for want of room. All values fit if the last
segment of the type has no more bytes than the style has room for, and the least value does not if
it has one more or longer. -/
theorem rendering_exact (style : Style) (type : String) (value : Int)
    (inside : value ∈ Representation.i128) :
    ∃ numeral text,
      (∀ digits, IsNumeral style.base value.natAbs digits ↔ digits = numeral) ∧
      text = style.opening ++ style.castOpening ++ lastSegment type ++ ")" ++
        (if value < 0 then "-" else "") ++ style.baseMark ++ String.ofList numeral ++
        style.closing ∧
      (text.utf8ByteSize ≤ 256 → render style type value = .ok text ∧
        ∃ buffer, Buffer.write style type value = .ok buffer ∧
          buffer.written.length = text.utf8ByteSize ∧ buffer.text? = some text) ∧
      (256 < text.utf8ByteSize → render style type value = .error .overCapacity ∧
        Buffer.write style type value = .error .overCapacity) ∧
      ((lastSegment type).utf8ByteSize ≤ style.room → render style type value = .ok text) ∧
      (style.room < (lastSegment type).utf8ByteSize →
        render style type Representation.i128.least = .error .overCapacity) := by
  refine ⟨_, style.undeclared type value, fun digits => isNumeral_base_iff,
    undeclared_eq_parts style type value, ?_, ?_, ?_, ?_⟩
  · intro fits
    obtain ⟨buffer, written, bytes_written, read⟩ := Buffer.write_of_fits style type inside fits
    refine ⟨render_eq_ok_iff.mpr ⟨rfl, fits⟩, buffer, written, ?_, read⟩
    rw [bytes_written, length_bytes]
  · intro beyond
    exact ⟨render_of_beyond beyond, Buffer.write_of_beyond style type inside beyond⟩
  · intro short
    exact render_eq_ok_iff.mpr ⟨rfl, utf8ByteSize_undeclared_le style inside short⟩
  · intro long
    exact render_of_beyond (capacity_lt_utf8ByteSize_least long)

/-- A segment of 158 bytes, all of them of two-byte characters, with which the least value just
fits, and one that is a byte longer. -/
theorem rendering_exact_boundary :
    let least := Representation.i128.least
    let segment := String.ofList (List.replicate 79 'é')
    least ∈ Representation.i128 ∧ (∃ text, render .qualified segment least = .ok text) ∧
      render .qualified (segment ++ "T") least = .error .overCapacity := by
  intro least segment
  have inside : least ∈ Representation.i128 := by decide
  have size : segment.utf8ByteSize = 158 := by
    have two : (String.utf8EncodeChar 'é').length = 2 := by decide
    rw [← length_bytes, bytes_ofList, List.length_flatMap, List.map_replicate,
      List.sum_replicate_nat, two]
  have absent : ':' ∉ segment.toList := by
    rw [String.toList_ofList, List.mem_replicate]
    rintro ⟨-, same⟩
    exact absurd same (by decide)
  have longer_absent : ':' ∉ (segment ++ "T").toList := by
    rw [String.toList_append, List.mem_append, not_or]
    exact ⟨absent, by decide⟩
  obtain ⟨-, text, -, -, -, -, short, -⟩ := rendering_exact .qualified segment least inside
  obtain ⟨-, -, -, -, -, -, -, long⟩ := rendering_exact .qualified (segment ++ "T") least inside
  refine ⟨inside, ⟨text, short ?_⟩, long ?_⟩
  · rw [lastSegment_of_not_mem absent, size]
    decide
  · rw [lastSegment_of_not_mem longer_absent, String.utf8ByteSize_append, size]
    decide

end EnumNames.Signature
