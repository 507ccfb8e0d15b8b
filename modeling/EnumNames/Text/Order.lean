import EnumNames.Text.Bytes
/-!
# Order of texts

Texts are ordered by their bytes. The order is decided by the first byte in which two texts
differ, and a text comes before every longer text that begins with it.
-/
namespace EnumNames.Text

/-- The order of two lists of bytes. The first byte in which they differ decides it, and where there
is none, their lengths do. -/
def compareBytes : (left right : List UInt8) → Ordering
  | byte :: rest, byte' :: rest' =>
    if byte < byte' then .lt
    else if byte' < byte then .gt
    else compareBytes rest rest'
  | left, right => Ord.compare left.length right.length

/-- The order of two texts is that of their bytes. -/
def compare (left right : String) : Ordering := compareBytes (bytes left) (bytes right)

/-- Whether neither of two texts comes before the other. -/
def same (left right : String) : Bool := (compare left right).isEq

/-- The order of two texts, if they have one, and they always do. -/
def partialCompare (left right : String) : Option Ordering := some (compare left right)

/-- Bytes are ordered as numbers are, and lists of them by the first that differ. -/
theorem compareBytes_eq (left right : List UInt8) :
    compareBytes left right = List.compareLex Ord.compare left right := by
  induction left generalizing right with
  | nil =>
    cases right with
    | nil => rfl
    | cons byte rest => exact Nat.compare_eq_lt.mpr (Nat.succ_pos rest.length)
  | cons byte rest hypothesis =>
    cases right with
    | nil => exact Nat.compare_eq_gt.mpr (Nat.succ_pos rest.length)
    | cons byte' rest' =>
      rw [compareBytes, hypothesis, List.compareLex_cons_cons]
      by_cases less : byte < byte'
      · rw [if_pos less, Std.compare_eq_lt.mpr less, Ordering.lt_then]
      by_cases greater : byte' < byte
      · rw [if_neg less, if_pos greater, Std.compare_eq_gt.mpr greater, Ordering.gt_then]
      · have equal : byte = byte' :=
          UInt8.le_antisymm (UInt8.not_lt.mp greater) (UInt8.not_lt.mp less)
        rw [if_neg less, if_neg greater, Std.compare_eq_iff_eq.mpr equal, Ordering.eq_then]

/-- Only a text itself is equal to it in the order. -/
theorem compare_eq_iff {left right : String} : compare left right = .eq ↔ left = right := by
  rw [compare, compareBytes_eq, Std.LawfulEqCmp.compare_eq_iff_eq, bytes_inj]

/-- Exchanging the two texts reverses their order. -/
theorem compare_swap (left right : String) : (compare left right).swap = compare right left := by
  rw [compare, compare, compareBytes_eq, compareBytes_eq, ← Std.OrientedCmp.eq_swap]

/-- The texts in ascending order. -/
def sort (texts : List String) : List String :=
  texts.mergeSort fun left right => (compare left right).isLE

/-- Sorting keeps every text as often as it is given. -/
theorem sort_perm (texts : List String) : (sort texts).Perm texts :=
  List.mergeSort_perm texts _

end EnumNames.Text
