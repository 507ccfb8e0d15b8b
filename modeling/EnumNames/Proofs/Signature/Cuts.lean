import EnumNames.Proofs.Signature.Segments
/-!
# Cuts in front of the last closing bracket

The reader of brackets walks once over a signature and counts the pairs it has entered. What it
finds can be said without a walk: among the offsets from which brackets balance up to the last
closing bracket, and which hold an opening bracket or the second colon of a qualifier, the greatest
one. What stands behind that closing bracket has no part in it.
-/
namespace EnumNames.Signature

open Text

/-- A segment can start behind this offset and end at the closing bracket: brackets balance between
the two, and a delimiter ends at the offset. -/
structure CutsAt (text : List UInt8) (stop cut : Nat) : Prop where
  /-- The offset is in front of the closing bracket. -/
  before : cut < stop
  /-- Brackets balance strictly between the offset and the closing bracket. -/
  balanced : Balanced ((text.take stop).drop (cut + 1))
  /-- An opening bracket is at the offset, or a colon behind another one. -/
  delimited : text[cut]? = some openAngle ∨
    (text[cut]? = some colon ∧ 0 < cut ∧ text[cut - 1]? = some colon)

variable {signature : String} {span : Span} {text : List UInt8} {byte first last : UInt8}
  {start stop cut index : Nat}

/-- The first bytes of a text end in the byte at the last of their offsets. -/
theorem singleton_suffix_take_iff (inside : index < text.length) :
    [byte] <:+ text.take (index + 1) ↔ text[index]? = some byte := by
  rw [List.take_add_one, List.getElem?_eq_getElem inside, Option.toList_some,
    List.singleton_suffix_append_singleton_iff, Option.some.injEq, eq_comm]

/-- The first bytes of a text end in the pair at the last two of their offsets. -/
theorem pair_suffix_take_iff (inside : index < text.length) :
    [first, last] <:+ text.take (index + 1) ↔
      text[index]? = some last ∧ 0 < index ∧ text[index - 1]? = some first := by
  rw [List.take_add_one, List.getElem?_eq_getElem inside, Option.toList_some,
    pair_suffix_concat_iff, Option.some.injEq]
  refine and_congr_right fun _ => ?_
  cases index with
  | zero => simp
  | succ earlier =>
    have below : earlier < text.length := Nat.lt_of_succ_lt inside
    rw [singleton_suffix_take_iff below]
    simp

/-- The offsets at which a segment can start in front of the closing bracket are those behind a
cut. -/
theorem splitsAt_opens_take_iff (inside : stop ≤ text.length) :
    SplitsAt (Opens 0) (text.take stop) start ↔ ∃ cut, CutsAt text stop cut ∧ start = cut + 1 := by
  have length : (text.take stop).length = stop := List.length_take_of_le inside
  have delimited_iff : ∀ {cut}, cut < stop →
      ([openAngle] <:+ (text.take stop).take (cut + 1) ∨
          [colon, colon] <:+ (text.take stop).take (cut + 1) ↔
        text[cut]? = some openAngle ∨
          (text[cut]? = some colon ∧ 0 < cut ∧ text[cut - 1]? = some colon)) := by
    intro cut before
    have below : cut < text.length := Nat.lt_of_lt_of_le before inside
    rw [List.take_take, Nat.min_eq_left before, singleton_suffix_take_iff below,
      pair_suffix_take_iff below]
  constructor
  · intro ⟨within, balanced, delimited⟩
    rw [length] at within
    cases start with
    | zero => simp at delimited
    | succ cut => exact ⟨cut, ⟨within, balanced, (delimited_iff within).mp delimited⟩, rfl⟩
  · rintro ⟨cut, ⟨before, balanced, delimited⟩, rfl⟩
    exact ⟨length.symm ▸ before, balanced, (delimited_iff before).mpr delimited⟩

/-- Where the offsets of one kind are those behind the offsets of another, the greatest of either
kind are next to each other. -/
theorem isGreatest_iff_of_behind {starts ends : Set Nat}
    (behind : ∀ start, start ∈ starts ↔ ∃ cut ∈ ends, start = cut + 1) :
    IsGreatest starts start ↔ ∃ cut, IsGreatest ends cut ∧ start = cut + 1 := by
  constructor
  · intro ⟨member, bound⟩
    obtain ⟨cut, found, rfl⟩ := (behind start).mp member
    refine ⟨cut, ⟨found, fun later other => ?_⟩, rfl⟩
    have last := bound ((behind (later + 1)).mpr ⟨later, other, rfl⟩)
    omega
  · rintro ⟨cut, ⟨found, bound⟩, rfl⟩
    refine ⟨(behind (cut + 1)).mpr ⟨cut, found, rfl⟩, fun other member => ?_⟩
    obtain ⟨earlier, found', rfl⟩ := (behind other).mp member
    exact Nat.succ_le_succ (bound found')

/-- The greatest offset at which a segment can start is the one behind the greatest cut. -/
theorem isGreatest_splitsAt_take_iff (inside : stop ≤ text.length) :
    IsGreatest {start | SplitsAt (Opens 0) (text.take stop) start} start ↔
      ∃ cut, IsGreatest {cut | CutsAt text stop cut} cut ∧ start = cut + 1 :=
  isGreatest_iff_of_behind fun _ => splitsAt_opens_take_iff inside

/-- Where there is a cut, there is a greatest one. -/
theorem exists_isGreatest_cut (cuts : CutsAt text stop cut) :
    ∃ greatest, IsGreatest {cut | CutsAt text stop cut} greatest := by
  have bounded : BddAbove {cut | CutsAt text stop cut} :=
    ⟨stop, fun _ other => Nat.le_of_lt other.before⟩
  exact bounded.exists_isGreatest_of_nonempty ⟨cut, cuts⟩

/-- A text comes apart at the greatest offset of a byte, and the byte is not behind that offset. -/
theorem take_append_cons_drop_of_isGreatest
    (greatest : IsGreatest {index | text[index]? = some byte} stop) :
    text = text.take stop ++ byte :: text.drop (stop + 1) ∧ byte ∉ text.drop (stop + 1) := by
  obtain ⟨found, bound⟩ := greatest
  obtain ⟨inside, same⟩ := List.getElem?_eq_some_iff.mp found
  constructor
  · rw [← same, ← List.drop_eq_getElem_cons inside, List.take_append_drop]
  · intro member
    obtain ⟨offset, later⟩ := List.mem_iff_getElem?.mp member
    rw [List.getElem?_drop] at later
    have behind : stop + 1 + offset ≤ stop := bound later
    omega

/-- Signatures with the same segments are read alike. -/
theorem locate_eq_of_ok_iff {style : Style} {other : String}
    (same : ∀ span, locate style other = .ok span ↔ locate style signature = .ok span) :
    locate style other = locate style signature := by
  cases located : locate style signature with
  | ok span => exact (same span).mpr located
  | error refusal =>
    obtain ⟨rfl, none⟩ := locate_eq_error_iff.mp located
    exact locate_eq_error_iff.mpr ⟨rfl, fun span found => none span ((same span).mp found)⟩

/-- The segment in front of the last closing bracket starts behind the greatest cut. -/
theorem locate_bracketed_eq_ok_iff_cut
    (closes : IsGreatest {index | (bytes signature)[index]? = some closeAngle} stop) :
    locate .bracketed signature = .ok span ↔
      ∃ cut, IsGreatest {cut | CutsAt (bytes signature) stop cut} cut ∧ span = ⟨cut + 1, stop⟩ := by
  obtain ⟨whole, fresh⟩ := take_append_cons_drop_of_isGreatest closes
  obtain ⟨below, -⟩ := List.getElem?_eq_some_iff.mp closes.1
  have inside : stop ≤ (bytes signature).length := Nat.le_of_lt below
  rw [locate_bracketed_eq_ok_iff whole fresh, isGreatest_splitsAt_take_iff inside,
    List.length_take_of_le inside]
  constructor
  · rintro ⟨ends, cut, greatest, starts⟩
    exact ⟨cut, greatest, by rw [← ends, ← starts]⟩
  · rintro ⟨cut, greatest, rfl⟩
    exact ⟨rfl, cut, greatest, rfl⟩

/-- Brackets balance in a segment that is found, and no qualifier stands in it outside of them. -/
theorem undelimited_of_locate_bracketed
    (closes : IsGreatest {index | (bytes signature)[index]? = some closeAngle} stop)
    (located : locate .bracketed signature = .ok span) :
    Style.Undelimited .bracketed (((bytes signature).take span.stop).drop span.start) := by
  obtain ⟨whole, fresh⟩ := take_append_cons_drop_of_isGreatest closes
  obtain ⟨below, -⟩ := List.getElem?_eq_some_iff.mp closes.1
  obtain ⟨ends, greatest⟩ := (locate_bracketed_eq_ok_iff whole fresh).mp located
  rw [List.length_take_of_le (Nat.le_of_lt below)] at ends
  have joined := isGreatest_splitsAt_take_drop greatest
  rw [ends]
  obtain ⟨-, balanced, unqualified, -⟩ := isGreatest_opens_iff.mp joined
  exact ⟨balanced, unqualified⟩

/-- What the reader of brackets finds in a signature that is not empty. Without a closing bracket it
finds nothing. Otherwise the segment ends at the last closing bracket and starts behind the greatest
cut, if there is a cut. It lies between two boundaries, brackets balance in it, and no qualifier
stands outside of them. What is behind the last closing bracket, opening brackets included, changes
nothing. -/
theorem bracketed_segment_behind_greatest_cut (signature : String) (nonempty : signature ≠ "") :
    (closeAngle ∉ bytes signature →
      locate .bracketed signature = .error .unrecognizedSignature) ∧
    ∀ stop, IsGreatest {index | (bytes signature)[index]? = some closeAngle} stop →
      (∀ span, locate .bracketed signature = .ok span ↔
        ∃ cut, IsGreatest {cut | CutsAt (bytes signature) stop cut} cut ∧
          span = ⟨cut + 1, stop⟩) ∧
      (locate .bracketed signature = .error .unrecognizedSignature ↔
        ∀ cut, ¬CutsAt (bytes signature) stop cut) ∧
      (∀ span, locate .bracketed signature = .ok span →
        span.start ≤ span.stop ∧ span.stop < signature.utf8ByteSize ∧
          IsBoundary signature span.start ∧ IsBoundary signature span.stop ∧
          Balanced (((bytes signature).take span.stop).drop span.start) ∧
          Unqualified (((bytes signature).take span.stop).drop span.start)) ∧
      ∀ other : String, (bytes other).take (stop + 1) = (bytes signature).take (stop + 1) →
        closeAngle ∉ (bytes other).drop (stop + 1) →
        locate .bracketed other = locate .bracketed signature := by
  refine ⟨locate_bracketed_of_not_mem nonempty, fun stop closes => ?_⟩
  obtain ⟨whole, fresh⟩ := take_append_cons_drop_of_isGreatest closes
  refine ⟨fun span => locate_bracketed_eq_ok_iff_cut closes, ?_, ?_, ?_⟩
  · rw [locate_eq_error_iff, and_iff_right rfl]
    constructor
    · intro unlocated cut cuts
      obtain ⟨last, greatest⟩ := exists_isGreatest_cut cuts
      exact unlocated _ ((locate_bracketed_eq_ok_iff_cut closes).mpr ⟨last, greatest, rfl⟩)
    · intro uncut span located
      obtain ⟨cut, greatest, -⟩ := (locate_bracketed_eq_ok_iff_cut closes).mp located
      exact uncut cut greatest.1
  · intro span located
    obtain ⟨ordered, inside, starts, ends⟩ := boundaries_of_locate_bracketed whole fresh located
    obtain ⟨balanced, unqualified⟩ := undelimited_of_locate_bracketed closes located
    exact ⟨ordered, inside, starts, ends, balanced, unqualified⟩
  · intro other same absent
    have other_whole : bytes other = (bytes signature).take stop ++
        closeAngle :: (bytes other).drop (stop + 1) := by
      have front : (bytes signature).take (stop + 1) =
          (bytes signature).take stop ++ [closeAngle] := by
        rw [List.take_add_one, closes.1, Option.toList_some]
      rw [List.append_cons, ← front, ← same, List.take_append_drop]
    refine locate_eq_of_ok_iff fun span => ?_
    rw [locate_bracketed_eq_ok_iff other_whole absent, locate_bracketed_eq_ok_iff whole fresh]

/-- A qualifier behind which a pair of brackets holds another one, and an opening bracket behind the
last closing one. -/
theorem bracketed_segment_behind_greatest_cut_nested :
    let signature := "r<a::B<x::Y>>(u<v)"
    signature ≠ "" ∧ IsGreatest {index | (bytes signature)[index]? = some closeAngle} 12 ∧
      IsGreatest {cut | CutsAt (bytes signature) 12 cut} 4 ∧
      locate .bracketed signature = .ok ⟨5, 12⟩ := by
  intro signature
  have nonempty : signature ≠ "" := by decide
  have closes : IsGreatest {index | (bytes signature)[index]? = some closeAngle} 12 := by
    have last : ∀ index < 18, (bytes signature)[index]? = some closeAngle → index ≤ 12 := by decide
    refine ⟨by decide, fun index found => ?_⟩
    obtain ⟨inside, -⟩ := List.getElem?_eq_some_iff.mp found
    exact last index inside found
  have located : locate .bracketed signature = .ok ⟨5, 12⟩ := by decide
  obtain ⟨-, closed⟩ := bracketed_segment_behind_greatest_cut signature nonempty
  obtain ⟨cut, greatest, same⟩ := ((closed 12 closes).1 _).mp located
  obtain rfl : cut = 4 := by simpa using same
  exact ⟨nonempty, closes, greatest, located⟩

end EnumNames.Signature
