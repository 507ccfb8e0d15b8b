import EnumNames.Proofs.Signature.Undeclared
/-!
# Room for a signature

A signature that is rendered is written byte after byte into a room of fixed size, and a byte that
finds no place ends the evaluation. The digits of a magnitude come up last one first, so they wait
in a scratch before they are written. What is in the room in the end is the signature of the value
as a whole, and it is refused exactly if the whole of it does not fit.
-/
namespace EnumNames.Signature

open Text

/-- Bytes in a room of fixed size. -/
structure Buffer where
  /-- The bytes that are written, in order. -/
  written : List UInt8
  /-- The room has a place for each of them. -/
  fits : written.length ≤ capacity

namespace Buffer

/-- The room before anything is written. -/
def empty : Buffer := ⟨[], Nat.zero_le capacity⟩

/-- One byte more, if there is a place for it. -/
def push (buffer : Buffer) (byte : UInt8) : Except Abort Buffer :=
  if room : buffer.written.length < capacity then
    .ok ⟨buffer.written ++ [byte], by rw [List.length_append]; exact room⟩
  else .error .overCapacity

/-- Bytes written one after the other, up to the first without a place. -/
def pushAll (buffer : Buffer) (more : List UInt8) : Except Abort Buffer := more.foldlM push buffer

/-- The byte of a digit. -/
def digitByte (digit : Nat) : UInt8 :=
  if digit < 10 then 48 + UInt8.ofNat digit else 97 + UInt8.ofNat digit - 10

/-- The digits of a number in a scratch of so many places, the last digit first. -/
def scratch? (base : Nat) : (places number : Nat) → Option (List UInt8)
  | 0, _ => none
  | places + 1, number =>
    let digit := digitByte (number % base)
    if number / base = 0 then some [digit]
    else (scratch? base places (number / base)).map (digit :: ·)

/-- The digits of a number, which wait in a scratch of forty places. -/
def pushMagnitude (buffer : Buffer) (base number : Nat) : Except Abort Buffer :=
  match scratch? base 40 number with
  | some digits => buffer.pushAll digits.reverse
  | none => .error (.text (.noSuchByte 40 40))

/-- A minus for a negative value. -/
def pushSign (buffer : Buffer) (value : Int) : Except Abort Buffer :=
  if value < 0 then buffer.push 45 else .ok buffer

/-- The signature of a value that no enumerator has, written into an empty room. -/
def write (style : Style) (type : String) (value : Int) : Except Abort Buffer := do
  let buffer ← empty.pushAll (bytes style.opening)
  let buffer ← buffer.pushAll (bytes style.castOpening)
  let buffer ← buffer.pushAll (bytes (lastSegment type))
  let buffer ← buffer.push 41
  let buffer ← buffer.pushSign value
  let buffer ← buffer.pushAll (bytes style.baseMark)
  let buffer ← buffer.pushMagnitude style.base value.natAbs
  buffer.pushAll (bytes style.closing)

/-- The text that the written bytes are the form of, if they are that of a text. -/
def text? (buffer : Buffer) : Option String := String.fromUTF8? ⟨buffer.written.toArray⟩

variable {buffer after : Buffer} {more first second : List UInt8} {base places number digit : Nat}
  {text : String} {value : Int}

/-! ## Bytes one after the other -/

/-- Bytes that find a place each stand behind those that were written before. -/
theorem pushAll_of_fits (room : (buffer.written ++ more).length ≤ capacity) :
    buffer.pushAll more = .ok ⟨buffer.written ++ more, room⟩ := by
  induction more generalizing buffer with
  | nil =>
    have same : buffer.written ++ [] = buffer.written := List.append_nil _
    simp only [pushAll, List.foldlM_nil, same]
    rfl
  | cons byte rest hypothesis =>
    have split : buffer.written ++ byte :: rest = (buffer.written ++ [byte]) ++ rest := by simp
    rw [split, List.length_append] at room
    have place : (buffer.written ++ [byte]).length ≤ capacity := by omega
    have free : buffer.written.length < capacity := by
      rw [List.length_append] at place
      exact place
    have pushed : buffer.push byte = .ok ⟨buffer.written ++ [byte], place⟩ := dif_pos free
    have later := @hypothesis ⟨buffer.written ++ [byte], place⟩ (by rw [List.length_append]; exact room)
    simp only [pushAll, List.foldlM_cons, pushed]
    simp only [split]
    exact later

/-- Bytes of which one finds no place end the evaluation. -/
theorem pushAll_of_beyond (beyond : capacity < (buffer.written ++ more).length) :
    buffer.pushAll more = .error .overCapacity := by
  induction more generalizing buffer with
  | nil =>
    have fits := buffer.fits
    rw [List.append_nil] at beyond
    omega
  | cons byte rest hypothesis =>
    have split : buffer.written ++ byte :: rest = (buffer.written ++ [byte]) ++ rest := by simp
    rw [split] at beyond
    simp only [pushAll, List.foldlM_cons]
    by_cases free : buffer.written.length < capacity
    · have place : (buffer.written ++ [byte]).length ≤ capacity := by
        rw [List.length_append]
        exact free
      have pushed : buffer.push byte = .ok ⟨buffer.written ++ [byte], place⟩ := dif_pos free
      rw [pushed]
      exact @hypothesis ⟨buffer.written ++ [byte], place⟩ beyond
    · have refused : buffer.push byte = .error .overCapacity := dif_neg free
      rw [refused]
      rfl

/-- Joined bytes are written by writing the first and then the second. -/
theorem pushAll_append (buffer : Buffer) (first second : List UInt8) :
    buffer.pushAll (first ++ second) = buffer.pushAll first >>= fun after => after.pushAll second :=
  List.foldlM_append

/-- A byte is written as bytes are of which there is one. -/
theorem push_eq_pushAll (buffer : Buffer) (byte : UInt8) :
    buffer.push byte = buffer.pushAll [byte] := by
  rw [pushAll, List.foldlM_cons]
  exact (bind_pure _).symm

/-! ## Digits -/

/-- The byte of a digit is the form of its character. -/
theorem utf8EncodeChar_digitChar (small : digit < 16) :
    String.utf8EncodeChar (Nat.digitChar digit) = [digitByte digit] := by
  have all : ∀ digit < 16, String.utf8EncodeChar (Nat.digitChar digit) = [digitByte digit] := by
    decide
  exact all digit small

/-- The numeral of a number below the base is one byte. -/
theorem bytes_magnitude_of_lt (small : base ≤ 16) (below : number < base) :
    bytes (magnitude base number) = [digitByte number] := by
  rw [magnitude, bytes_ofList, Nat.toDigits_of_lt_base below, List.flatMap_singleton,
    utf8EncodeChar_digitChar (Nat.lt_of_lt_of_le below small)]

/-- The numeral of any other number ends in the byte of its last digit. -/
theorem bytes_magnitude_of_le (positive : 1 < base) (small : base ≤ 16) (beyond : base ≤ number) :
    bytes (magnitude base number) =
      bytes (magnitude base (number / base)) ++ [digitByte (number % base)] := by
  have last : number % base < 16 := Nat.lt_of_lt_of_le (Nat.mod_lt _ (by omega)) small
  rw [magnitude, magnitude, bytes_ofList, bytes_ofList, Nat.toDigits_of_base_le positive beyond,
    List.flatMap_append, List.flatMap_singleton, utf8EncodeChar_digitChar last]

/-- A scratch with a place for each digit of a number holds the digits in reverse. -/
theorem scratch?_eq (positive : 1 < base) (small : base ≤ 16)
    (room : number < base ^ (places + 1)) :
    scratch? base (places + 1) number = some (bytes (magnitude base number)).reverse := by
  induction places generalizing number with
  | zero =>
    have below : number < base := by simpa using room
    have none : number / base = 0 := Nat.div_eq_of_lt below
    rw [bytes_magnitude_of_lt small below, scratch?, Nat.mod_eq_of_lt below]
    exact if_pos none
  | succ places hypothesis =>
    rcases Nat.lt_or_ge number base with below | beyond
    · have none : number / base = 0 := Nat.div_eq_of_lt below
      rw [bytes_magnitude_of_lt small below, scratch?, Nat.mod_eq_of_lt below]
      exact if_pos none
    · have some_digit : 0 < number / base := Nat.div_pos beyond (by omega)
      have rest : number / base < base ^ (places + 1) := by
        rw [Nat.pow_succ, Nat.mul_comm] at room
        exact Nat.div_lt_of_lt_mul room
      rw [bytes_magnitude_of_le positive small beyond, List.reverse_concat, scratch?,
        hypothesis rest]
      exact if_neg (by omega)

/-- The magnitude of a value of 128 bits is written as its numeral: the scratch has forty places. -/
theorem pushMagnitude_eq (style : Style) (buffer : Buffer) (inside : value ∈ Representation.i128) :
    buffer.pushMagnitude style.base value.natAbs =
      buffer.pushAll (bytes (magnitude style.base value.natAbs)) := by
  have small := natAbs_le_of_mem_i128 inside
  have places : 2 ^ 127 < style.base ^ (39 + 1) := by
    cases style <;> decide
  have digits := scratch?_eq style.one_lt_base style.base_le (Nat.lt_of_le_of_lt small places)
  rw [pushMagnitude, digits]
  simp only [List.reverse_reverse]

/-! ## The whole signature -/

/-- A sign is written as the byte of a minus, for a negative value only. -/
theorem pushSign_eq (buffer : Buffer) (value : Int) :
    buffer.pushSign value = buffer.pushAll (bytes (sign value)) := by
  rw [pushSign, sign]
  by_cases negative : value < 0
  · rw [if_pos negative, if_pos negative, push_eq_pushAll]
    rfl
  · rw [if_neg negative, if_neg negative]
    rfl

/-- A signature that is written piece by piece is written as its bytes one after the other. -/
theorem write_eq (style : Style) (type : String) (inside : value ∈ Representation.i128) :
    write style type value = empty.pushAll (bytes (style.undeclared type value)) := by
  rw [bytes_undeclared, ← List.singleton_append]
  simp only [write, push_eq_pushAll, pushSign_eq, pushMagnitude_eq style _ inside, pushAll_append]

/-- What is written of a signature that fits is its bytes, and they are read as its text. -/
theorem write_of_fits (style : Style) (type : String) (inside : value ∈ Representation.i128)
    (room : (style.undeclared type value).utf8ByteSize ≤ capacity) :
    ∃ buffer, write style type value = .ok buffer ∧
      buffer.written = bytes (style.undeclared type value) ∧
      buffer.text? = some (style.undeclared type value) := by
  have places : (empty.written ++ bytes (style.undeclared type value)).length ≤ capacity := room
  refine ⟨_, (write_eq style type inside).trans (pushAll_of_fits places), rfl, ?_⟩
  rw [text?, fromUTF8?_eq_some_iff]
  exact ByteArray.ext (Array.toArray_toList).symm

/-- A signature that does not fit is not written. -/
theorem write_of_beyond (style : Style) (type : String) (inside : value ∈ Representation.i128)
    (beyond : capacity < (style.undeclared type value).utf8ByteSize) :
    write style type value = .error .overCapacity := by
  have places : capacity < (empty.written ++ bytes (style.undeclared type value)).length := beyond
  rw [write_eq style type inside, pushAll_of_beyond places]

end Buffer

end EnumNames.Signature
