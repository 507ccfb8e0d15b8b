import EnumNames.Proofs.Passes
import Mathlib.Data.List.Find
import Mathlib.Data.List.Nodup
import Mathlib.Logic.Relation
/-!
# Edits that no probe notices

A probe reads the name of an enumeration and the signature of the first enumerator with its value,
and nothing else. So both passes over a range end alike in two enumerations of one name whose first
enumerators have the same signatures at the values of the range. Some edits of the enumerators keep
the first ones where they are: a new order of enumerators with different values, an alias behind an
enumerator with its value, and whatever happens to enumerators outside the range. Any number of them
in a row changes no result.
-/
namespace EnumNames.Enumeration

open Signature

/-- Both passes over a range end alike in two enumerations, for every style, searcher and length of
the table. -/
def AgreeOver (range : Range) (first second : Enumeration) : Prop :=
  ∀ style searcher, first.count style searcher range = second.count style searcher range ∧
    ∀ length, first.table style searcher range length = second.table style searcher range length

/-- One edit of a list of enumerators that no probe in the range notices. -/
inductive Edit (range : Range) : List Enumerator → List Enumerator → Prop where
  /-- Enumerators with different values stand in another order. -/
  | permuted (front back : List Enumerator) {old new : List Enumerator} (reordered : old.Perm new)
      (distinct : (old.map (·.value)).Nodup) :
      Edit range (front ++ old ++ back) (front ++ new ++ back)
  /-- An enumerator is added behind another one with its value. -/
  | aliased {front : List Enumerator} (back : List Enumerator) {earlier added : Enumerator}
      (declared : earlier ∈ front) (same : earlier.value = added.value) :
      Edit range (front ++ back) (front ++ added :: back)
  /-- Enumerators whose values are not in the range give way to others whose values are not. -/
  | replaced (front back : List Enumerator) {old new : List Enumerator}
      (old_outside : ∀ enumerator ∈ old, enumerator.value ∉ range)
      (new_outside : ∀ enumerator ∈ new, enumerator.value ∉ range) :
      Edit range (front ++ old ++ back) (front ++ new ++ back)

variable {first second : Enumeration} {style : Style} {range : Range} {start stop value : Int}
  {probe other : Int → Except Abort (Option String)} {noRoom : Refusal}
  {old new enumerators : List Enumerator}

/-! ## What a probe reads -/

/-- Probes of two enumerations of one name are alike where the first enumerators have the same
signature. -/
theorem nameAt_congr (named : first.name = second.name)
    (same : (first.find? value).map (·.signature) = (second.find? value).map (·.signature)) :
    first.nameAt style value = second.nameAt style value := by
  cases found : first.find? value with
  | none =>
    have absent : second.find? value = none := by
      rw [found] at same
      exact Option.map_eq_none_iff.mp same.symm
    rw [nameAt, nameAt, found, absent, named]
  | some enumerator =>
    rw [found] at same
    obtain ⟨counterpart, found', signed⟩ := Option.map_eq_some_iff.mp same.symm
    rw [nameAt_of_find?_eq_some found, nameAt_of_find?_eq_some found', signed]

/-- Probes that are alike in a range are counted alike. -/
theorem tally_congr (alike : ∀ value ∈ (⟨start, stop⟩ : Range), probe value = other value) :
    tally probe (Range.size ⟨start, stop⟩) start =
      tally other (Range.size ⟨start, stop⟩) start := by
  induction start using Range.induction stop with
  | ended start ended =>
    rw [Range.size_of_le ended]
    rfl
  | below start below ih =>
    have here : probe start = other start := alike start ⟨Int.le_refl start, below⟩
    have later := ih fun value inside => alike value ((Range.mem_iff_of_lt below).mpr (.inr inside))
    rw [Range.size_of_lt below, tally, tally, here, later]

/-- Probes that are alike in a range are laid down alike. -/
theorem fill_congr (alike : ∀ value ∈ (⟨start, stop⟩ : Range), probe value = other value)
    (room : Nat) :
    fill probe noRoom room (Range.size ⟨start, stop⟩) start =
      fill other noRoom room (Range.size ⟨start, stop⟩) start := by
  induction start using Range.induction stop generalizing room with
  | ended start ended =>
    rw [Range.size_of_le ended]
    rfl
  | below start below ih =>
    have here : probe start = other start := alike start ⟨Int.le_refl start, below⟩
    have later := ih fun value inside => alike value ((Range.mem_iff_of_lt below).mpr (.inr inside))
    rw [Range.size_of_lt below]
    cases answers : other start with
    | error cause => rw [fill_of_error (here.trans answers), fill_of_error answers]
    | ok answer =>
      cases answer with
      | none => rw [fill_of_none (here.trans answers), fill_of_none answers, later]
      | some name =>
        cases room with
        | zero => rw [fill_of_full (here.trans answers), fill_of_full answers]
        | succ room => rw [fill_of_some (here.trans answers), fill_of_some answers, later]

/-- Both passes end alike in two enumerations of one name whose first enumerators have the same
signatures at the values of the range. -/
theorem agreeOver_of_find? (named : first.name = second.name)
    (same : ∀ value ∈ range,
      (first.find? value).map (·.signature) = (second.find? value).map (·.signature)) :
    AgreeOver range first second := by
  intro style searcher
  have alike : ∀ value ∈ range, first.nameAt style value = second.nameAt style value :=
    fun value inside => nameAt_congr named (same value inside)
  cases searcher with
  | bitflag => exact ⟨rfl, fun length => rfl⟩
  | sequential =>
    constructor
    · rw [count, count, tally_congr alike]
    · intro length
      rw [table_eq, table_eq, fill_congr alike]

/-! ## What an edit leaves -/

/-- Of enumerators with different values, the order does not matter. -/
theorem find?_eq_of_perm (reordered : old.Perm new) (distinct : (old.map (·.value)).Nodup)
    (value : Int) : old.find? (·.value = value) = new.find? (·.value = value) := by
  apply List.find?_eq_find?_of_perm reordered
  intro one one_mem two two_mem
  obtain ⟨one_mem, one_value⟩ := one_mem
  obtain ⟨two_mem, two_value⟩ := two_mem
  have same : one.value = two.value := by
    rw [of_decide_eq_true one_value, of_decide_eq_true two_value]
  exact List.inj_on_of_nodup_map distinct one_mem two_mem same

/-- No enumerator is found among others that are all outside the range. -/
theorem find?_eq_none_of_outside (outside : ∀ enumerator ∈ enumerators, enumerator.value ∉ range)
    (inside : value ∈ range) : enumerators.find? (·.value = value) = none := by
  rw [List.find?_eq_none]
  intro enumerator member found
  have same : enumerator.value = value := of_decide_eq_true found
  exact outside enumerator member (same ▸ inside)

/-- After an edit, the first enumerators of the values in the range are the same. -/
theorem Edit.find?_eq (edit : Edit range old new) (inside : value ∈ range) :
    old.find? (·.value = value) = new.find? (·.value = value) := by
  cases edit with
  | permuted front back reordered distinct =>
    rw [List.find?_append, List.find?_append, List.find?_append, List.find?_append,
      find?_eq_of_perm reordered distinct]
  | @aliased front back earlier added declared same =>
    rw [List.find?_append, List.find?_append]
    cases found : front.find? (·.value = value) with
    | some enumerator => rfl
    | none =>
      -- Nothing in front has the value, so the added enumerator, whose value is there, has not.
      have absent := List.find?_eq_none.mp found earlier declared
      rw [List.find?_cons_of_neg (by simpa [same] using absent)]
  | replaced front back old_outside new_outside =>
    rw [List.find?_append, List.find?_append, List.find?_append, List.find?_append,
      find?_eq_none_of_outside old_outside inside, find?_eq_none_of_outside new_outside inside]

/-- After any number of edits, made or taken back, the first enumerators of the values in the range
are the same. -/
theorem find?_eq_of_edits (edits : Relation.EqvGen (Edit range) old new) (inside : value ∈ range) :
    old.find? (·.value = value) = new.find? (·.value = value) := by
  induction edits with
  | rel old new edit => exact edit.find?_eq inside
  | refl enumerators => rfl
  | symm old new _ ih => exact ih.symm
  | trans old middle new _ _ one two => exact one.trans two

/-- Only the first enumerator of each value in a range matters to the passes over it. In two
enumerations of one name they end alike if the first enumerators have the same signatures at the
values of the range, or if the enumerators of one come from those of the other by edits, made or
taken back, that no probe in the range notices. -/
theorem first_enumerators_matter (first second : Enumeration) (range : Range)
    (named : first.name = second.name) :
    ((∀ value ∈ range,
        (first.find? value).map (·.signature) = (second.find? value).map (·.signature)) →
      AgreeOver range first second) ∧
    (Relation.EqvGen (Edit range) first.enumerators second.enumerators →
      AgreeOver range first second) := by
  refine ⟨agreeOver_of_find? named, fun edits => ?_⟩
  apply agreeOver_of_find? named
  intro value inside
  rw [find?, find?, find?_eq_of_edits edits inside]

/-- Two enumerators change places, an alias without a readable signature is added, and so is an
enumerator outside the range. -/
theorem first_enumerators_matter_edited :
    let a : Enumerator := ⟨0, "[E::A]"⟩
    let b : Enumerator := ⟨1, "[E::B]"⟩
    let shadowed : Enumerator := ⟨1, "unread"⟩
    let far : Enumerator := ⟨9, "malformed"⟩
    let plain : Enumeration := ⟨"E", .i8, [a, b], none, none, {}, 1024⟩
    let edited : Enumeration := ⟨"E", .u8, [b, far, a, shadowed], none, none, {}, 1024⟩
    Relation.EqvGen (Edit ⟨0, 2⟩) plain.enumerators edited.enumerators ∧
      edited.table .qualified .sequential ⟨0, 2⟩ 2 = .ok ["A", "B"] := by
  intro a b shadowed far plain edited
  have reordered : [a, b].Perm [b, a] := .swap b a []
  have no_old : ∀ enumerator ∈ ([] : List Enumerator), enumerator.value ∉ (⟨0, 2⟩ : Range) := nofun
  have far_outside : ∀ enumerator ∈ [far], enumerator.value ∉ (⟨0, 2⟩ : Range) := by decide
  have declared : b ∈ [b, a] := List.mem_cons_self
  have swapped : Edit ⟨0, 2⟩ [a, b] [b, a] := Edit.permuted [] [] reordered (by decide)
  have doubled : Edit ⟨0, 2⟩ [b, a] [b, a, shadowed] := Edit.aliased [] declared rfl
  have widened : Edit ⟨0, 2⟩ [b, a, shadowed] [b, far, a, shadowed] :=
    Edit.replaced [b] [a, shadowed] no_old far_outside
  have edits : Relation.EqvGen (Edit ⟨0, 2⟩) plain.enumerators edited.enumerators :=
    ((Relation.EqvGen.rel _ _ swapped).trans _ _ _ (.rel _ _ doubled)).trans _ _ _
      (.rel _ _ widened)
  have agree := (first_enumerators_matter plain edited ⟨0, 2⟩ rfl).2 edits
  obtain ⟨-, tables⟩ := agree .qualified .sequential
  refine ⟨edits, ?_⟩
  rw [← tables 2]
  decide

end EnumNames.Enumeration
