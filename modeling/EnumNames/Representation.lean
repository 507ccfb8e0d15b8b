/-!
# Integer representations

The values of an enumeration are stored in one of eleven integer types, each with the name it has
in a declaration. The two types of the size of an address have 64 bits.
-/
namespace EnumNames

/-- The integer type that the values of an enumeration are stored in. -/
inductive Representation where
  | i8 | i16 | i32 | i64 | i128 | isize
  | u8 | u16 | u32 | u64 | usize
deriving DecidableEq, Repr

namespace Representation

/-- Whether the type has negative values. -/
def isSigned : Representation → Bool
  | i8 | i16 | i32 | i64 | i128 | isize => true
  | u8 | u16 | u32 | u64 | usize => false

/-- The number of bits of a value. -/
def bits : Representation → Nat
  | i8 | u8 => 8
  | i16 | u16 => 16
  | i32 | u32 => 32
  | i64 | u64 | isize | usize => 64
  | i128 => 128

/-- The least value. -/
def least (representation : Representation) : Int :=
  if representation.isSigned then -Int.pow 2 (representation.bits - 1) else 0

/-- The greatest value. -/
def greatest (representation : Representation) : Int :=
  if representation.isSigned then Int.pow 2 (representation.bits - 1) - 1
  else Int.pow 2 representation.bits - 1

/-- A value belongs to a representation between its least and its greatest value. -/
instance : Membership Int Representation where
  mem representation value := representation.least ≤ value ∧ value ≤ representation.greatest

instance (value : Int) (representation : Representation) : Decidable (value ∈ representation) :=
  inferInstanceAs (Decidable (representation.least ≤ value ∧ value ≤ representation.greatest))

/-- Membership is a matter of the least and the greatest value. -/
theorem mem_iff {value : Int} {representation : Representation} :
    value ∈ representation ↔ representation.least ≤ value ∧ value ≤ representation.greatest :=
  Iff.rfl

/-- All representations. -/
def all : List Representation := [i8, i16, i32, i64, i128, isize, u8, u16, u32, u64, usize]

/-- The name of a representation in a declaration. -/
def name : Representation → String
  | i8 => "i8"
  | i16 => "i16"
  | i32 => "i32"
  | i64 => "i64"
  | i128 => "i128"
  | isize => "isize"
  | u8 => "u8"
  | u16 => "u16"
  | u32 => "u32"
  | u64 => "u64"
  | usize => "usize"

/-- The representation with a name. -/
def ofName? (name : String) : Option Representation := all.find? (·.name = name)

/-- A name is read as the representation that has it. -/
theorem ofName?_name (representation : Representation) :
    ofName? representation.name = some representation := by
  cases representation <;> decide

end Representation

end EnumNames
