import EnumNames.Proofs.Text.Boundaries
/-!
# Which parts a text has

What is asked for is at fault for its offsets out of order first, then for an end behind that of the
text, and then for an offset inside a character. A part without bytes splits no character, so the
last fault is not found in it. In every other case the part is there, with the bytes between the
offsets. A part of a part is a part of the text, further on by the offset of the first.
-/
namespace EnumNames.Text

variable {text part inner : String} {start stop first last : Nat}

/-- Offsets out of order are at fault, also where they are outside the text. -/
theorem slice_of_lt (inverted : stop < start) : slice text start stop = .error .startPastEnd := by
  rw [slice, if_pos inverted]

/-- Offsets in order are at fault where the part would end behind the text. -/
theorem slice_of_beyond (ordered : start ≤ stop) (beyond : text.utf8ByteSize < stop) :
    slice text start stop = .error .endOutOfBounds := by
  have upright : ¬stop < start := Nat.not_lt.mpr ordered
  rw [slice, if_neg upright, if_pos beyond]

/-- A part with bytes is at fault where either offset is inside a character. -/
theorem slice_of_split (proper : start < stop) (inside : stop ≤ text.utf8ByteSize)
    (split : ¬(IsBoundary text start ∧ IsBoundary text stop)) :
    slice text start stop = .error .splitsCharacter := by
  have apart : start ≠ stop := Nat.ne_of_lt proper
  exact (slice_eq_error_iff (Nat.le_of_lt proper) inside).mpr ⟨rfl, apart, split⟩

/-- A part without bytes is the empty text, wherever in the text it is. -/
theorem slice_empty (inside : start ≤ text.utf8ByteSize) : slice text start start = .ok "" := by
  have none : ((bytes text).take start).drop start = [] := by
    apply List.drop_eq_nil_of_le
    exact List.length_take_le _ _
  refine slice_eq_ok_iff.mpr ⟨Nat.le_refl start, inside, ?_⟩
  rw [none]
  rfl

/-- A part of a part is a part of the text, further on by the offset of the first. -/
theorem slice_of_slice (outer : slice text start stop = .ok part)
    (nested : slice part first last = .ok inner) :
    slice text (start + first) (start + last) = .ok inner := by
  obtain ⟨-, inside, exact⟩ := slice_eq_ok_iff.mp outer
  obtain ⟨ordered, inside', exact'⟩ := slice_eq_ok_iff.mp nested
  have length : start + part.utf8ByteSize = stop := utf8ByteSize_of_slice_eq_ok outer
  have cut : (bytes part).take last = ((bytes text).take (start + last)).drop start := by
    have shorter : min (start + last) stop = start + last := by omega
    rw [exact, List.take_drop, List.take_take, shorter]
  refine slice_eq_ok_iff.mpr ⟨by omega, by omega, ?_⟩
  rw [exact', cut, List.drop_drop]

/-- The parts of a text, whatever its characters. Asking for one fails with the message that its
start is past its end, or else that its end is out of bounds, or else, if it has bytes, that an
offset splits a character; there is no other reason to fail, and what is found has the bytes
between the offsets. A part without bytes is found also inside a character. What is found in a part
that was found before is also found in the text itself. -/
theorem parts_exact (text : String) (start stop : Nat) :
    (stop < start →
      (slice text start stop).mapError Fault.message = .error "substr start is past its end") ∧
    (start ≤ stop → text.utf8ByteSize < stop →
      (slice text start stop).mapError Fault.message = .error "substr end is out of bounds") ∧
    (start < stop → stop ≤ text.utf8ByteSize →
      ¬(IsBoundary text start ∧ IsBoundary text stop) →
      (slice text start stop).mapError Fault.message =
        .error "substr bounds split a UTF-8 sequence") ∧
    (start ≤ stop → stop ≤ text.utf8ByteSize →
      (start < stop → IsBoundary text start ∧ IsBoundary text stop) →
      ∃ part, slice text start stop = .ok part ∧
        bytes part = ((bytes text).take stop).drop start) ∧
    (start ≤ text.utf8ByteSize → slice text start start = .ok "") ∧
    ∀ first last part inner, slice text start stop = .ok part →
      slice part first last = .ok inner →
      slice text (start + first) (start + last) = .ok inner := by
  refine ⟨?_, ?_, ?_, ?_, slice_empty, fun _ _ _ _ => slice_of_slice⟩
  · intro inverted
    rw [slice_of_lt inverted]
    rfl
  · intro ordered beyond
    rw [slice_of_beyond ordered beyond]
    rfl
  · intro proper inside split
    rw [slice_of_split proper inside split]
    rfl
  · intro ordered inside whole
    have boundaries : start = stop ∨ IsBoundary text start ∧ IsBoundary text stop :=
      (Nat.eq_or_lt_of_le ordered).imp_right whole
    obtain ⟨part, found⟩ := exists_slice_eq_ok_iff.mpr ⟨ordered, inside, boundaries⟩
    obtain ⟨-, -, exact⟩ := slice_eq_ok_iff.mp found
    exact ⟨part, found, exact⟩

/-- In a text whose last character has two bytes: offsets out of order behind its end, an end
behind it, an offset inside that character, all of that character, a part without bytes in it, and
a part of a part. -/
theorem parts_exact_split :
    (slice "a<bé" 9 8).mapError Fault.message = .error "substr start is past its end" ∧
      (slice "a<bé" 4 6).mapError Fault.message = .error "substr end is out of bounds" ∧
      (slice "a<bé" 0 4).mapError Fault.message =
        .error "substr bounds split a UTF-8 sequence" ∧
      (∃ part, slice "a<bé" 3 5 = .ok part ∧ bytes part = [195, 169]) ∧
      slice "a<bé" 4 4 = .ok "" ∧ slice "a<bé" 2 3 = .ok "b" := by
  have size : "a<bé".utf8ByteSize = 5 := by decide
  have inside : ¬IsBoundary "a<bé" 4 := by
    have last : bytes "a<bé" = [97, 60, 98, 195] ++ [169] := by decide
    exact (isBoundary_last_iff last).not.mpr (by decide)
  have middle : IsBoundary "a<bé" 3 :=
    isBoundary_iff_exists_append.mpr ⟨"a<b", "é", by decide, by decide⟩
  have final : IsBoundary "a<bé" 5 :=
    isBoundary_iff_exists_append.mpr ⟨"a<bé", "", by decide, by decide⟩
  have outer : slice "a<bé" 1 5 = .ok "<bé" := slice_eq_ok_iff.mpr (by decide)
  have nested : slice "<bé" 1 2 = .ok "b" := slice_eq_ok_iff.mpr (by decide)
  obtain ⟨inverted, -⟩ := parts_exact "a<bé" 9 8
  obtain ⟨-, beyond, -⟩ := parts_exact "a<bé" 4 6
  obtain ⟨-, -, split, -⟩ := parts_exact "a<bé" 0 4
  obtain ⟨-, -, -, whole, -⟩ := parts_exact "a<bé" 3 5
  obtain ⟨-, -, -, -, empty, -⟩ := parts_exact "a<bé" 4 4
  obtain ⟨-, -, -, -, -, compose⟩ := parts_exact "a<bé" 1 5
  refine ⟨inverted (by decide), beyond (by decide) (by omega), ?_, ?_, empty (by omega), ?_⟩
  · exact split (by decide) (by omega) (fun boundaries => inside boundaries.2)
  · obtain ⟨part, found, exact⟩ := whole (by decide) (by omega) fun _ => ⟨middle, final⟩
    exact ⟨part, found, exact.trans (by decide)⟩
  · exact compose 1 2 "<bé" "b" outer nested

end EnumNames.Text
