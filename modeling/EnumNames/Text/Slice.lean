import EnumNames.Text.Bytes
/-!
# Parts of a text

A part is named by byte offsets, and a single byte by its index. Either can lie outside the text,
and a part can also cut a character in two; `Fault` says which. The law says when a byte is found.
-/
namespace EnumNames.Text

/-- Why a text has no such byte or no such part. -/
inductive Fault where
  /-- The index is not below the number of bytes. -/
  | noSuchByte (length index : Nat)
  /-- The part would start after its own end. -/
  | startPastEnd
  /-- The part would end after the text does. -/
  | endOutOfBounds
  /-- The bytes of the part are not the UTF-8 form of any text. -/
  | splitsCharacter
deriving DecidableEq, Repr

/-- The wording of a fault. -/
def Fault.message : Fault → String
  | .noSuchByte length index =>
    "index out of bounds: the len is " ++ toString length ++ " but the index is " ++ toString index
  | .startPastEnd => "substr start is past its end"
  | .endOutOfBounds => "substr end is out of bounds"
  | .splitsCharacter => "substr bounds split a UTF-8 sequence"

/-- The byte at an index. -/
def byteAt (text : String) (index : Nat) : Except Fault UInt8 :=
  match (bytes text)[index]? with
  | some byte => .ok byte
  | none => .error (.noSuchByte text.utf8ByteSize index)

/-- The byte found is the one in that place of the list of bytes. -/
theorem byteAt_eq_ok_iff {text : String} {index : Nat} {byte : UInt8} :
    byteAt text index = .ok byte ↔ (bytes text)[index]? = some byte := by
  unfold byteAt
  cases (bytes text)[index]? <;> simp

/-- The part of a text from one byte offset up to another. A part without bytes is the empty
text, also where the offset lies inside a character. -/
def slice (text : String) (start stop : Nat) : Except Fault String :=
  if stop < start then .error .startPastEnd
  else if text.utf8ByteSize < stop then .error .endOutOfBounds
  else match String.fromUTF8? (text.toByteArray.extract start stop) with
    | some part => .ok part
    | none => .error .splitsCharacter

end EnumNames.Text
