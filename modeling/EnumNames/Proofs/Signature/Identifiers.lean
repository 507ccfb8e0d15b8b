import EnumNames.Declaration.Lexer
import EnumNames.Proofs.Signature.RoundTrip
import Mathlib.Data.List.TakeWhile
/-!
# Identifiers as variants

The variants of a declaration are words. No character of a word is part of a delimiter, and a word
begins as a name does, so every identifier is read back from the signature of its variant.
-/
namespace EnumNames

open Text Signature

namespace Declaration

/-- A text is an identifier: a character that begins words, and then characters that continue
them. -/
def IsIdentifier (text : String) : Prop :=
  text.toList.head?.any startsWord ∧ text.toList.all continuesWord

instance (text : String) : Decidable (IsIdentifier text) :=
  inferInstanceAs (Decidable (_ ∧ _))

/-- The identifiers are the texts that are read as one word, which is not a raw one. -/
theorem isIdentifier_iff {text : String} :
    IsIdentifier text ↔
      Token.startsName text.toList ∧ Token.readWord text.toList = (⟨false, text⟩, []) := by
  rw [IsIdentifier]
  unfold Token.startsName Token.readWord
  split
  · next rest spelled =>
    -- The hash of a raw word continues no word.
    simp [spelled, show continuesWord '#' = false by decide]
  · refine and_congr_right fun _ => ?_
    rw [List.all_eq_true]
    constructor
    · intro continued
      rw [List.takeWhile_eq_self_iff.mpr continued, List.dropWhile_eq_nil_iff.mpr continued,
        String.ofList_toList]
    · intro read
      exact List.dropWhile_eq_nil_iff.mp (congrArg Prod.snd read)

/-- No character with a number below that of the first letter begins a word. -/
theorem lt_toNat_of_startsWord {char : Char} (starts : startsWord char) : 64 < char.toNat := by
  by_contra small
  have none : ∀ code < 65, startsWord (Char.ofNat code) = false := by decide
  have foreign := none char.toNat (by omega)
  rw [Char.ofNat_toNat, starts] at foreign
  contradiction

variable {text : String}

/-- An identifier is not empty. -/
theorem IsIdentifier.ne_empty (identifier : IsIdentifier text) : text ≠ "" := by
  intro same
  rw [same] at identifier
  exact absurd identifier (by decide)

/-- A byte of a character that does not continue words is not in an identifier. -/
theorem IsIdentifier.not_mem_bytes {byte : UInt8} (identifier : IsIdentifier text)
    (ascii : byte < 128) (foreign : continuesWord (Char.ofNat byte.toNat) = false) :
    byte ∉ bytes text := by
  refine Text.not_mem_bytes ascii fun char member same => ?_
  have continued : continuesWord char := List.all_eq_true.mp identifier.2 char member
  rw [← same, Char.ofNat_toNat, continued] at foreign
  contradiction

/-- The first byte of an identifier has a number no smaller than that of the first letter. -/
theorem IsIdentifier.lt_first {first : UInt8} (identifier : IsIdentifier text)
    (head : (bytes text).head? = some first) : 64 < first.toNat := by
  by_cases ascii : first < 128
  · obtain ⟨rest, cut⟩ := List.head?_eq_some_iff.mp head
    have seam : bytes text = [] ++ first :: rest := cut
    obtain ⟨front, char, back, whole, same, before, -⟩ := exists_seam ascii seam
    have empty : front = "" := bytes_inj.mp before
    have starts := identifier.1
    rw [whole, empty] at starts
    rw [← same]
    exact lt_toNat_of_startsWord (by simpa using starts)
  · have large : ¬first.toNat < 128 := ascii
    omega

/-- An identifier begins as a name does. -/
theorem IsIdentifier.beginsName (identifier : IsIdentifier text) : BeginsName text := by
  intro first head
  have large := identifier.lt_first head
  refine ⟨?_, ?_, ?_⟩
  · have beyond : ¬first ≤ 57 := Nat.not_le_of_lt (Nat.lt_trans (by decide) large)
    rw [isDigit, decide_eq_false beyond, Bool.and_false]
  · intro same
    rw [same] at large
    exact absurd large (by decide)
  · intro same
    rw [same] at large
    exact absurd large (by decide)

/-- No delimiter of a style is in an identifier. -/
theorem IsIdentifier.undelimited (identifier : IsIdentifier text) (style : Style) :
    style.Undelimited (bytes text) := by
  have colons : colon ∉ bytes text := identifier.not_mem_bytes (by decide) (by decide)
  cases style with
  | bracketed =>
    have opening : openAngle ∉ bytes text := identifier.not_mem_bytes (by decide) (by decide)
    have closing : closeAngle ∉ bytes text := identifier.not_mem_bytes (by decide) (by decide)
    have plain : IsPlain (bytes text) := ⟨colons, opening, closing⟩
    exact ⟨plain.balanced, plain.unqualified⟩
  | qualified =>
    have spaces : space ∉ bytes text := identifier.not_mem_bytes (by decide) (by decide)
    exact ⟨fun pair => colons (pair.mem (by simp)), fun pair => spaces (pair.mem (by simp))⟩

/-- A variant that is an identifier is read back from its signature. -/
theorem IsIdentifier.decode_declared (identifier : IsIdentifier text) (style : Style)
    (type : String) : decode style (style.declared type text) = .ok (some text) :=
  (decode_declared_eq_some_iff identifier.ne_empty).mpr
    ⟨identifier.beginsName, identifier.undelimited style⟩

end Declaration

end EnumNames
