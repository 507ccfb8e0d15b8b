import EnumNames.Text.Bytes
import Mathlib.Data.List.Infix
/-!
# Balanced angle brackets

A reader of brackets comes from the end of a segment and carries the number of pairs it has
entered. That number is the surplus of closing brackets over opening ones in what it has passed,
so a segment is described here by the counts in the parts at its end. With closing brackets behind
it that have no partner yet, the same description is what the reader keeps at every byte.
-/
namespace EnumNames.Signature

open Text

/-- Brackets balance in a segment behind which so many closing brackets have no partner yet: they
all find one in it, and no part at its end opens more than is closed behind. -/
structure BalancedWithin (nested : Nat) (segment : List UInt8) : Prop where
  /-- Every closing bracket has a partner, and every opening one is such a partner. -/
  equal : segment.count openAngle = segment.count closeAngle + nested
  /-- No part at the end opens more brackets than are closed in it and behind it. -/
  closed : ∀ part, part <:+ segment → part.count openAngle ≤ part.count closeAngle + nested

/-- Brackets balance in a segment: it has as many of either kind, and no part at its end opens
more than it closes. -/
abbrev Balanced (segment : List UInt8) : Prop := BalancedWithin 0 segment

instance (nested : Nat) (segment : List UInt8) : Decidable (BalancedWithin nested segment) :=
  decidable_of_iff
    (segment.count openAngle = segment.count closeAngle + nested ∧
      ∀ part ∈ segment.tails, part.count openAngle ≤ part.count closeAngle + nested) <| by
    simp only [List.mem_tails]
    exact ⟨fun ⟨equal, closed⟩ => ⟨equal, closed⟩, fun ⟨equal, closed⟩ => ⟨equal, closed⟩⟩

/-- The empty segment balances if no bracket is left without a partner. -/
theorem balancedWithin_nil_iff {nested : Nat} : BalancedWithin nested [] ↔ nested = 0 := by
  constructor
  · intro balanced
    simpa using balanced.equal.symm
  · intro none
    subst none
    exact ⟨rfl, fun part final => by simp [List.suffix_nil.mp final]⟩

/-- Joined segments balance if the one at the end opens no more than it may, and the brackets it
leaves without a partner find theirs in front of it. -/
theorem balancedWithin_append_iff {nested : Nat} {left right : List UInt8} :
    BalancedWithin nested (left ++ right) ↔
      (∀ part, part <:+ right → part.count openAngle ≤ part.count closeAngle + nested) ∧
        ∃ outer, outer + right.count openAngle = nested + right.count closeAngle ∧
          BalancedWithin outer left := by
  constructor
  · intro balanced
    have inner : ∀ part, part <:+ right →
        part.count openAngle ≤ part.count closeAngle + nested := fun part final =>
      balanced.closed part (final.trans (List.suffix_append left right))
    have last := inner right List.suffix_rfl
    have whole := balanced.equal
    simp only [List.count_append] at whole
    refine ⟨inner, nested + right.count closeAngle - right.count openAngle, by omega, by omega, ?_⟩
    intro part final
    have longer := balanced.closed (part ++ right) (List.suffix_append_self_iff.mpr final)
    simp only [List.count_append] at longer
    omega
  · intro ⟨inner, outer, step, balanced⟩
    have whole := balanced.equal
    refine ⟨by simp only [List.count_append]; omega, ?_⟩
    intro part final
    -- A part at the end lies in the second segment, or it is all of that and a part of the first.
    rcases List.suffix_or_suffix_of_suffix final (List.suffix_append left right)
      with short | ⟨front, rfl⟩
    · exact inner part short
    · have bound := balanced.closed front (List.suffix_append_self_iff.mp final)
      simp only [List.count_append]
      omega

/-- The last byte of a balanced segment changes only how many brackets are left to the bytes
before it. -/
theorem balancedWithin_concat_iff {nested : Nat} {segment : List UInt8} {byte : UInt8} :
    BalancedWithin nested (segment ++ [byte]) ↔
      ∃ outer, outer + [byte].count openAngle = nested + [byte].count closeAngle ∧
        BalancedWithin outer segment := by
  rw [balancedWithin_append_iff]
  refine and_iff_right_of_imp ?_
  intro ⟨outer, step, _⟩ part final
  rcases List.suffix_cons_iff.mp final with rfl | empty
  · omega
  · rw [List.suffix_nil.mp empty]
    exact Nat.zero_le _

/-- Balanced segments joined are balanced. -/
theorem Balanced.append {left right : List UInt8} (first : Balanced left)
    (second : Balanced right) : Balanced (left ++ right) :=
  balancedWithin_append_iff.mpr ⟨second.closed, 0, by have := second.equal; omega, first⟩

/-- A part at the end of a balanced segment balances if it has as many brackets of either kind. -/
theorem Balanced.of_append {left right : List UInt8} (balanced : Balanced (left ++ right))
    (same : right.count openAngle = right.count closeAngle) : Balanced right :=
  ⟨same, fun part final => balanced.closed part (final.trans (List.suffix_append left right))⟩

/-- A segment without brackets balances. -/
theorem balanced_of_not_mem {segment : List UInt8} (opening : openAngle ∉ segment)
    (closing : closeAngle ∉ segment) : Balanced segment := by
  constructor
  · rw [List.count_eq_zero.mpr opening, List.count_eq_zero.mpr closing]
  · intro part suffix
    rw [List.count_eq_zero.mpr fun member => opening (suffix.mem member)]
    exact Nat.zero_le _

end EnumNames.Signature
