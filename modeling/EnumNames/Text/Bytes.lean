/-!
# Text as bytes

Lengths, offsets and the order of texts are counted in the bytes of their UTF-8 form. This module
holds that view of a text and the bytes that the other modules look for. The laws say that the
view loses nothing and that it turns joining of texts into joining of lists.
-/
namespace EnumNames.Text

/-- The bytes of the UTF-8 form of a text, in order. -/
def bytes (text : String) : List UInt8 := text.toByteArray.data.toList

/-- A text has as many bytes as its UTF-8 form. -/
@[simp] theorem length_bytes (text : String) : (bytes text).length = text.utf8ByteSize := rfl

/-- The bytes of two texts joined are the bytes of the first and then those of the second. -/
@[simp] theorem bytes_append (left right : String) :
    bytes (left ++ right) = bytes left ++ bytes right := by
  simp [bytes]

/-- Texts with the same bytes are the same text. -/
theorem bytes_inj {left right : String} : bytes left = bytes right ↔ left = right := by
  refine ⟨fun same => ?_, fun same => same ▸ rfl⟩
  exact String.toByteArray_inj.mp (ByteArray.ext (Array.toList_inj.mp same))

/-- The byte of the space. -/
def space : UInt8 := 32

/-- The byte of the opening parenthesis. -/
def parenthesis : UInt8 := 40

/-- The byte of the colon. -/
def colon : UInt8 := 58

/-- The byte of the opening angle bracket. -/
def openAngle : UInt8 := 60

/-- The byte of the closing angle bracket. -/
def closeAngle : UInt8 := 62

/-- Whether a byte is one of the ten ASCII digits. -/
def isDigit (byte : UInt8) : Bool := 48 ≤ byte && byte ≤ 57

/-- Whether a byte is a blank of ASCII: space, tab, line feed, form feed or carriage return. The
vertical tab is none. -/
def isBlank (byte : UInt8) : Bool :=
  byte == space || byte == 9 || byte == 10 || byte == 12 || byte == 13

/-- Whether a text begins with an ASCII digit. -/
def startsWithDigit (text : String) : Bool := (bytes text).head?.any isDigit

end EnumNames.Text
