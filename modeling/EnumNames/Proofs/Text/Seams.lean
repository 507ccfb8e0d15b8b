import EnumNames.Text.Slice
import Mathlib.Data.List.Basic
/-!
# Seams between characters

A byte below 128 is a whole character of its text, so a text can be taken apart at every such
byte, and each side of it is a text again. Bytes found in a text are turned into characters found
in it this way, and a part that lies between two such bytes can be taken.
-/
namespace EnumNames.Text

/-- A list begins with an element exactly if that is its first one. -/
theorem singleton_prefix_iff {α : Type} {first : α} {list : List α} :
    [first] <+: list ↔ list.head? = some first := by
  rw [List.head?_eq_some_iff]
  exact exists_congr fun _ => eq_comm

/-- The bytes of characters joined are their forms one after the other. -/
theorem bytes_ofList (characters : List Char) :
    bytes (String.ofList characters) = characters.flatMap String.utf8EncodeChar := by
  rw [bytes, String.toByteArray_ofList, List.utf8Encode, List.toList_data_toByteArray]

/-- The bytes of a text are the forms of its characters one after the other. -/
theorem bytes_eq_flatMap (text : String) :
    bytes text = text.toList.flatMap String.utf8EncodeChar := by
  rw [← bytes_ofList, String.ofList_toList]

/-- A byte below 128 in the form of a character is all of that form. -/
theorem utf8EncodeChar_of_mem {char : Char} {byte : UInt8}
    (member : byte ∈ String.utf8EncodeChar char) (ascii : byte < 128) :
    String.utf8EncodeChar char = [byte] ∧ char.toNat = byte.toNat := by
  have small : byte.toNat < 128 := ascii
  by_cases one : char.val.toNat ≤ 0x7f
  · have single : String.utf8EncodeChar char = [UInt8.ofNat char.val.toNat] := if_pos one
    rw [single, List.mem_singleton] at member
    subst member
    refine ⟨single, ?_⟩
    rw [UInt8.toNat_ofNat', Nat.mod_eq_of_lt (by omega)]
    rfl
  · -- Every byte of a longer form has a marker above its payload.
    exfalso
    rw [String.utf8EncodeChar] at member
    simp only [one, if_false] at member
    split_ifs at member <;>
      simp only [List.mem_cons, List.not_mem_nil, or_false] at member <;>
      rcases member with rfl | rfl | rfl | rfl <;>
      simp only [UInt8.toNat_ofNat'] at small <;> omega

/-- A character below 128 is one byte. -/
theorem utf8EncodeChar_of_lt {char : Char} (ascii : char.toNat < 128) :
    String.utf8EncodeChar char = [char.toUInt8] := by
  have one : char.val.toNat ≤ 0x7f := Nat.le_of_lt_succ ascii
  exact if_pos one

/-- Characters below 128 are one byte each. -/
theorem bytes_ofList_of_lt {characters : List Char}
    (ascii : ∀ char ∈ characters, char.toNat < 128) :
    bytes (String.ofList characters) = characters.map Char.toUInt8 := by
  rw [bytes_ofList, List.map_eq_flatMap]
  exact List.flatMap_congr fun char member => utf8EncodeChar_of_lt (ascii char member)

/-- Where all bytes of a text are below 128, so are its characters. -/
theorem toNat_lt_of_bytes {text : String} (ascii : ∀ byte ∈ bytes text, byte < 128) :
    ∀ char ∈ text.toList, char.toNat < 128 := by
  intro char member
  obtain ⟨byte, first⟩ := List.exists_mem_of_ne_nil _ (String.utf8EncodeChar_ne_nil (c := char))
  have found : byte ∈ bytes text := by
    rw [bytes_eq_flatMap]
    exact List.mem_flatMap_of_mem member first
  have small := ascii byte found
  have same := (utf8EncodeChar_of_mem first small).2
  rw [same]
  exact small

/-- Characters come apart at a byte below 128 among their bytes: it is one of them. -/
theorem exists_seam_of_flatMap {characters : List Char} {left right : List UInt8} {byte : UInt8}
    (ascii : byte < 128)
    (cut : characters.flatMap String.utf8EncodeChar = left ++ byte :: right) :
    ∃ front char back, characters = front ++ char :: back ∧ char.toNat = byte.toNat ∧
      front.flatMap String.utf8EncodeChar = left ∧
      back.flatMap String.utf8EncodeChar = right := by
  induction characters generalizing left with
  | nil => simp at cut
  | cons first rest hypothesis =>
    rw [List.flatMap_cons] at cut
    rcases Nat.lt_or_ge left.length (String.utf8EncodeChar first).length with inside | after
    · -- The byte is part of the form of the first character, so it is all of that form.
      have member : byte ∈ String.utf8EncodeChar first := by
        have place : left.length < (left ++ byte :: right).length := by simp
        have found : (left ++ byte :: right)[left.length] = byte := by simp
        simp only [← cut, List.getElem_append_left inside] at found
        exact found ▸ List.getElem_mem inside
      obtain ⟨single, same⟩ := utf8EncodeChar_of_mem member ascii
      rw [single, List.length_singleton] at inside
      obtain rfl : left = [] := List.eq_nil_of_length_eq_zero (by omega)
      rw [single] at cut
      exact ⟨[], first, rest, rfl, same, rfl, (List.cons.inj cut).2⟩
    · obtain ⟨beyond, rfl⟩ : String.utf8EncodeChar first <+: left :=
        List.prefix_of_prefix_length_le ⟨_, cut⟩ ⟨_, rfl⟩ after
      rw [List.append_assoc, List.append_cancel_left_eq] at cut
      obtain ⟨front, char, back, rfl, same, before, behind⟩ := hypothesis cut
      exact ⟨first :: front, char, back, rfl, same, by rw [List.flatMap_cons, before], behind⟩

/-- A text comes apart at a byte below 128, which is a character between two texts. -/
theorem exists_seam {text : String} {left right : List UInt8} {byte : UInt8}
    (ascii : byte < 128) (cut : bytes text = left ++ byte :: right) :
    ∃ front char back, text = front ++ String.singleton char ++ back ∧
      char.toNat = byte.toNat ∧ bytes front = left ∧ bytes back = right := by
  rw [bytes_eq_flatMap] at cut
  obtain ⟨front, char, back, whole, same, before, behind⟩ := exists_seam_of_flatMap ascii cut
  refine ⟨String.ofList front, char, String.ofList back, ?_, same, ?_, ?_⟩
  · rw [← String.toList_inj]
    simp [whole]
  · rw [bytes_ofList, before]
  · rw [bytes_ofList, behind]

/-- A byte below 128 in a text is one of the characters of the text. -/
theorem exists_mem_toList {text : String} {byte : UInt8} (ascii : byte < 128)
    (member : byte ∈ bytes text) : ∃ char ∈ text.toList, char.toNat = byte.toNat := by
  obtain ⟨left, right, cut⟩ := List.append_of_mem member
  obtain ⟨front, char, back, rfl, same, -, -⟩ := exists_seam ascii cut
  exact ⟨char, by simp, same⟩

/-- A byte below 128 is not in a text if no character of the text has its number. -/
theorem not_mem_bytes {text : String} {byte : UInt8} (ascii : byte < 128)
    (absent : ∀ char ∈ text.toList, char.toNat ≠ byte.toNat) : byte ∉ bytes text := by
  intro member
  obtain ⟨char, found, same⟩ := exists_mem_toList ascii member
  exact absent char found same

/-- Bytes are read as a text exactly if they are its form. -/
theorem fromUTF8?_eq_some_iff {array : ByteArray} {text : String} :
    String.fromUTF8? array = some text ↔ text.toByteArray = array := by
  unfold String.fromUTF8?
  constructor
  · intro read
    split at read
    · cases read
      rfl
    · contradiction
  · rintro rfl
    rw [dif_pos text.isValidUTF8]
    rfl

/-- A part is found exactly if the offsets are in order and inside the text, and the bytes between
them are those of a text. -/
theorem slice_eq_ok_iff {text part : String} {start stop : Nat} :
    slice text start stop = .ok part ↔
      start ≤ stop ∧ stop ≤ text.utf8ByteSize ∧
        bytes part = ((bytes text).take stop).drop start := by
  have same : part.toByteArray = text.toByteArray.extract start stop ↔
      bytes part = ((bytes text).take stop).drop start := by
    rw [ByteArray.ext_iff, ← Array.toList_inj, ByteArray.data_extract, Array.toList_extract,
      List.extract_eq_take_drop, List.drop_take]
    rfl
  rw [← same, ← fromUTF8?_eq_some_iff, slice]
  split
  · next inverted => simp [Nat.not_le.mpr inverted]
  split
  · next outside => simp [Nat.not_le.mpr outside]
  split
  · next ordered inside _ _ read =>
    simp [read, Nat.not_lt.mp ordered, Nat.not_lt.mp inside]
  · next read => simp [read]

/-- What stands between two texts is found between their ends. -/
theorem slice_middle (front part back : String) :
    slice (front ++ part ++ back) front.utf8ByteSize (front ++ part).utf8ByteSize = .ok part := by
  rw [slice_eq_ok_iff, bytes_append, List.take_left' (length_bytes _), bytes_append,
    List.drop_left' (length_bytes _)]
  simp

/-- A part that is found is as long as its offsets are apart. -/
theorem utf8ByteSize_of_slice_eq_ok {text part : String} {start stop : Nat}
    (found : slice text start stop = .ok part) : start + part.utf8ByteSize = stop := by
  obtain ⟨ordered, inside, exact⟩ := slice_eq_ok_iff.mp found
  rw [← length_bytes part, exact, List.length_drop, List.length_take, length_bytes]
  omega

end EnumNames.Text
