import EnumNames.Proofs.Signature.Brackets
import EnumNames.Signature.Span
import Mathlib.Data.List.Basic
import Mathlib.Data.Nat.SuccPred
import Mathlib.Order.Bounds.Basic
/-!
# Delimiters in front of a segment

The two readers walk from the end of a signature toward its start and stop at the first delimiter
they accept. Here the same is said of the whole text: an offset takes a text apart into a front
and a rest, a style says which pairs of a front and a rest a delimiter separates, and its reader
finds the greatest such offset.
-/
namespace EnumNames.Signature

open Text

/-- The offsets at which a text comes apart into a front and a rest of some kind. -/
structure SplitsAt (split : List UInt8 → List UInt8 → Prop) (text : List UInt8) (start : Nat) :
    Prop where
  /-- The offset is in the text or at its end. -/
  inside : start ≤ text.length
  /-- The front and the rest are of that kind. -/
  parts : split (text.take start) (text.drop start)

variable {split : List UInt8 → List UInt8 → Prop} {text front rest segment : List UInt8}
variable {byte : UInt8} {start : Nat}

/-- Joined bytes come apart where they are joined. -/
theorem splitsAt_length_iff : SplitsAt split (front ++ rest) front.length ↔ split front rest := by
  constructor
  · intro ⟨_, parts⟩
    rwa [List.take_left, List.drop_left] at parts
  · intro parts
    exact ⟨by simp, by rwa [List.take_left, List.drop_left]⟩

/-- With one more byte a text comes apart behind that byte, or where the byte belongs to the
rest. -/
theorem splitsAt_concat_iff :
    SplitsAt split (text ++ [byte]) start ↔
      (start = text.length + 1 ∧ split (text ++ [byte]) []) ∨
        SplitsAt (fun front rest => split front (rest ++ [byte])) text start := by
  constructor
  · intro ⟨inside, parts⟩
    rw [List.length_append, List.length_singleton] at inside
    rcases Nat.eq_or_lt_of_le inside with rfl | earlier
    · rw [List.take_of_length_le (by simp), List.drop_of_length_le (by simp)] at parts
      exact .inl ⟨rfl, parts⟩
    · have earlier : start ≤ text.length := Nat.le_of_lt_succ earlier
      rw [List.take_append_of_le_length earlier, List.drop_append_of_le_length earlier] at parts
      exact .inr ⟨earlier, parts⟩
  · rintro (⟨rfl, parts⟩ | ⟨inside, parts⟩)
    · refine ⟨by simp, ?_⟩
      rwa [List.take_of_length_le (by simp), List.drop_of_length_le (by simp)]
    · refine ⟨by rw [List.length_append]; omega, ?_⟩
      rwa [List.take_append_of_le_length inside, List.drop_append_of_le_length inside]

/-- Behind the last byte no later offset remains. -/
theorem isGreatest_splitsAt_concat (parts : split (text ++ [byte]) []) :
    IsGreatest {start | SplitsAt split (text ++ [byte]) start} (text.length + 1) := by
  refine ⟨splitsAt_concat_iff.mpr (.inl ⟨rfl, parts⟩), fun start splits => ?_⟩
  simpa using splits.inside

/-- Where joined bytes come apart later than they are joined, the first bytes of the second part
belong to the front. -/
theorem exists_append_of_splitsAt (splits : SplitsAt split (front ++ segment) start)
    (later : front.length ≤ start) :
    ∃ inner rest, segment = inner ++ rest ∧ start = (front ++ inner).length ∧
      split (front ++ inner) rest := by
  obtain ⟨inside, parts⟩ := splits
  rw [List.length_append] at inside
  have within : start = front.length + (start - front.length) := by omega
  rw [within, List.take_length_add_append, List.drop_length_add_append] at parts
  refine ⟨_, _, (List.take_append_drop (start - front.length) segment).symm, ?_, parts⟩
  rw [List.length_append, List.length_take]
  omega

/-- The greatest offset at which joined bytes come apart is where they are joined if no bytes of
the second part can be taken over into the front. -/
theorem isGreatest_splitsAt_length_iff :
    IsGreatest {start | SplitsAt split (front ++ segment) start} front.length ↔
      split front segment ∧
        ∀ inner rest, segment = inner ++ rest → split (front ++ inner) rest → inner = [] := by
  refine and_congr splitsAt_length_iff ⟨?_, ?_⟩
  · intro greatest inner rest whole parts
    rw [whole, ← List.append_assoc] at greatest
    have bound := greatest (splitsAt_length_iff.mpr parts)
    rw [List.length_append] at bound
    exact List.eq_nil_of_length_eq_zero (by omega)
  · intro last start splits
    by_contra beyond
    obtain ⟨inner, rest, whole, length, parts⟩ := exists_append_of_splitsAt splits (by omega)
    rw [last inner rest whole parts, List.append_nil] at length
    omega

/-- The greatest offset at which a text comes apart is where its two parts are joined. -/
theorem isGreatest_splitsAt_take_drop
    (greatest : IsGreatest {offset | SplitsAt split text offset} start) :
    IsGreatest {offset | SplitsAt split (text.take start ++ text.drop start) offset}
      (text.take start).length := by
  rw [List.take_append_drop, List.length_take_of_le greatest.1.inside]
  exact greatest

/-- If joined bytes come apart where they are joined, there is a greatest offset at which they
come apart, and it is there or later. -/
theorem exists_isGreatest_splitsAt (parts : split front segment) :
    ∃ inner rest, segment = inner ++ rest ∧ split (front ++ inner) rest ∧
      IsGreatest {start | SplitsAt split (front ++ segment) start} (front ++ inner).length := by
  have bounded : BddAbove {start | SplitsAt split (front ++ segment) start} :=
    ⟨(front ++ segment).length, fun _ splits => splits.inside⟩
  have joined : SplitsAt split (front ++ segment) front.length := splitsAt_length_iff.mpr parts
  obtain ⟨last, greatest⟩ := bounded.exists_isGreatest_of_nonempty ⟨front.length, joined⟩
  obtain ⟨inner, rest, whole, rfl, parts⟩ :=
    exists_append_of_splitsAt greatest.1 (greatest.2 joined)
  exact ⟨inner, rest, whole, parts, greatest⟩

/-- An offset that is greatest is the only one that is. -/
theorem some_eq_some_iff_isGreatest {offsets : Set Nat} {found : Nat}
    (greatest : IsGreatest offsets found) : some found = some start ↔ IsGreatest offsets start := by
  rw [Option.some.injEq]
  exact ⟨fun same => same ▸ greatest, greatest.unique⟩

/-- A reader that stops in front of the byte it has come to has found the greatest offset if the
text comes apart behind that byte. -/
theorem some_eq_some_iff_of_parts {before : List UInt8}
    (parts : split (before.reverse ++ [byte]) []) :
    some (before.length + 1) = some start ↔
      IsGreatest {start | SplitsAt split (byte :: before).reverse start} start := by
  have greatest := isGreatest_splitsAt_concat parts
  rw [List.length_reverse, ← List.reverse_cons] at greatest
  exact some_eq_some_iff_isGreatest greatest

/-- Bytes end in a pair if they end in its second byte and the bytes before in its first. -/
theorem pair_suffix_concat_iff {first last : UInt8} :
    [first, last] <:+ text ++ [byte] ↔ byte = last ∧ [first] <:+ text := by
  rw [← List.singleton_append,
    List.suffix_append_inj_of_length_eq (show [last].length = [byte].length from rfl)]
  simp [eq_comm, and_comm]

/-- Joined bytes end in the last byte of the second part, if that has any. -/
theorem singleton_suffix_append {inner : List UInt8} {last : UInt8}
    (final : [last] <:+ front ++ inner) : inner = [] ∨ [last] <:+ inner := by
  rcases List.eq_nil_or_concat' inner with none | ⟨inner, byte, rfl⟩
  · exact .inl none
  · rw [← List.append_assoc, List.singleton_suffix_append_singleton_iff] at final
    rw [List.singleton_suffix_append_singleton_iff]
    exact .inr final

/-- A pair at the end of joined bytes is in the second part, unless that is too short for it. -/
theorem pair_suffix_append {inner : List UInt8} {first last : UInt8}
    (final : [first, last] <:+ front ++ inner) :
    inner = [] ∨ (inner = [last] ∧ [first] <:+ front) ∨ [first, last] <:+ inner := by
  rcases List.eq_nil_or_concat' inner with none | ⟨inner, byte, rfl⟩
  · exact .inl none
  · rw [← List.append_assoc, pair_suffix_concat_iff] at final
    obtain ⟨rfl, before⟩ := final
    rcases singleton_suffix_append before with rfl | inside
    · rw [List.append_nil] at before
      exact .inr (.inl ⟨rfl, before⟩)
    · exact .inr (.inr (pair_suffix_concat_iff.mpr ⟨rfl, inside⟩))

/-- A pair in joined bytes is in one of the parts, or it is where they are joined. -/
theorem pair_infix_append_iff {first last : UInt8} :
    [first, last] <:+: front ++ rest ↔
      [first, last] <:+: front ∨ [first, last] <:+: rest ∨
        ([first] <:+ front ∧ [last] <+: rest) := by
  rw [List.infix_append_iff_ne_nil]
  refine or_congr_right (or_congr_right ⟨?_, ?_⟩)
  · intro ⟨before, behind, nonempty, nonempty', whole, ends, begins⟩
    obtain ⟨rfl, rfl⟩ : before = [first] ∧ behind = [last] := by
      match before, behind with
      | [_], [_] => simpa using whole.symm
      | [_], _ :: _ :: _ => simp at whole
      | _ :: _ :: _, _ :: _ => simp at whole
    exact ⟨ends, begins⟩
  · intro ⟨ends, begins⟩
    exact ⟨[first], [last], by simp, by simp, rfl, ends, begins⟩

/-- The first byte of reversed bytes is the last one of the text. -/
theorem head?_eq_some_iff_suffix {reversed : List UInt8} :
    reversed.head? = some byte ↔ [byte] <:+ reversed.reverse := by
  rw [← List.reverse_prefix, List.reverse_reverse, List.head?_eq_some_iff]
  exact ⟨fun ⟨rest, same⟩ => ⟨rest, same.symm⟩, fun ⟨rest, same⟩ => ⟨rest, same.symm⟩⟩

/-! ## Brackets -/

/-- A segment of the bracketed style can follow a front, when so many pairs are entered behind it:
its brackets balance, and an opening bracket or a qualifier ends the front. -/
structure Opens (nested : Nat) (front rest : List UInt8) : Prop where
  /-- Brackets balance in the segment. -/
  balanced : BalancedWithin nested rest
  /-- The front ends in a delimiter. -/
  delimited : [openAngle] <:+ front ∨ [colon, colon] <:+ front

variable {nested : Nat}

/-- Nothing but a delimiter is needed behind the last byte, where no pair is entered. -/
theorem opens_concat_nil_iff :
    Opens nested (text ++ [byte]) [] ↔
      nested = 0 ∧ (byte = openAngle ∨ byte = colon ∧ [colon] <:+ text) := by
  constructor
  · intro ⟨balanced, delimited⟩
    rw [List.singleton_suffix_append_singleton_iff, pair_suffix_concat_iff] at delimited
    exact ⟨balancedWithin_nil_iff.mp balanced, delimited.imp_left Eq.symm⟩
  · intro ⟨outermost, delimited⟩
    refine ⟨balancedWithin_nil_iff.mpr outermost, ?_⟩
    rw [List.singleton_suffix_append_singleton_iff, pair_suffix_concat_iff]
    exact delimited.imp_left Eq.symm

/-- The last byte of a segment changes only how many pairs are entered. -/
theorem opens_concat_iff :
    Opens nested front (rest ++ [byte]) ↔
      ∃ outer, outer + [byte].count openAngle = nested + [byte].count closeAngle ∧
        Opens outer front rest := by
  constructor
  · intro ⟨balanced, delimited⟩
    obtain ⟨outer, step, balanced⟩ := balancedWithin_concat_iff.mp balanced
    exact ⟨outer, step, balanced, delimited⟩
  · intro ⟨outer, step, balanced, delimited⟩
    exact ⟨balancedWithin_concat_iff.mpr ⟨outer, step, balanced⟩, delimited⟩

/-- A closing bracket at the end of the text enters one pair more. -/
theorem splitsAt_opens_concat_closeAngle_iff :
    SplitsAt (Opens nested) (text ++ [closeAngle]) start ↔
      SplitsAt (Opens (nested + 1)) text start := by
  rw [splitsAt_concat_iff]
  simp [opens_concat_nil_iff, opens_concat_iff, openAngle, closeAngle, colon]

/-- An opening bracket at the end of the text leaves a pair that is entered. -/
theorem splitsAt_opens_concat_openAngle_iff :
    SplitsAt (Opens (nested + 1)) (text ++ [openAngle]) start ↔
      SplitsAt (Opens nested) text start := by
  rw [splitsAt_concat_iff]
  simp [opens_concat_nil_iff, opens_concat_iff, openAngle, closeAngle]

/-- Any other byte at the end of the text has no meaning, unless it ends a qualifier and no pair is
entered. -/
theorem splitsAt_opens_concat_iff_of_ne (closing : byte ≠ closeAngle) (opening : byte ≠ openAngle)
    (unqualified : ¬(nested = 0 ∧ byte = colon ∧ [colon] <:+ text)) :
    SplitsAt (Opens nested) (text ++ [byte]) start ↔ SplitsAt (Opens nested) text start := by
  rw [splitsAt_concat_iff]
  simp [opens_concat_nil_iff, opens_concat_iff, closing, opening]
  tauto

/-- The reader of brackets finds the greatest offset at which a segment can start. -/
theorem segmentStart?_eq_some_iff {reversed : List UInt8} :
    segmentStart? nested reversed = some start ↔
      IsGreatest {start | SplitsAt (Opens nested) reversed.reverse start} start := by
  fun_induction segmentStart? nested reversed with
  | case1 nested =>
    refine ⟨nofun, fun ⟨⟨_, _, delimited⟩, _⟩ => ?_⟩
    simp at delimited
  | case2 nested before entered =>
    simpa only [List.reverse_cons, splitsAt_opens_concat_closeAngle_iff] using entered
  | case3 before =>
    have parts : Opens 0 (before.reverse ++ [openAngle]) [] :=
      opens_concat_nil_iff.mpr ⟨rfl, .inl rfl⟩
    exact some_eq_some_iff_of_parts parts
  | case4 before outer _ left =>
    simpa only [List.reverse_cons, splitsAt_opens_concat_openAngle_iff] using left
  | case5 nested byte before _ _ qualified =>
    obtain ⟨rfl, rfl, first⟩ := qualified
    have parts : Opens 0 (before.reverse ++ [colon]) [] :=
      opens_concat_nil_iff.mpr ⟨rfl, .inr ⟨rfl, head?_eq_some_iff_suffix.mp first⟩⟩
    exact some_eq_some_iff_of_parts parts
  | case6 nested byte before closing opening unqualified passed =>
    rw [head?_eq_some_iff_suffix] at unqualified
    simpa only [List.reverse_cons,
      splitsAt_opens_concat_iff_of_ne closing opening unqualified] using passed

/-- The segment of the bracketed style ends in front of the last closing bracket, and starts at the
greatest offset at which a segment that ends there can. -/
theorem bracketed?_eq_some_iff {tail : List UInt8} {span : Span} (last : closeAngle ∉ tail) :
    bracketed? (text ++ closeAngle :: tail).reverse = some span ↔
      span.stop = text.length ∧
        IsGreatest {start | SplitsAt (Opens 0) text start} span.start := by
  have skipped : (text ++ closeAngle :: tail).reverse.dropWhile (· ≠ closeAngle) =
      closeAngle :: text.reverse := by
    rw [List.reverse_append, List.reverse_cons, List.append_assoc, List.singleton_append,
      List.dropWhile_append_of_pos]
    · simp
    · intro byte member
      rw [decide_eq_true_eq]
      intro same
      exact last (List.mem_reverse.mp (same ▸ member))
  simp only [bracketed?, skipped, Option.map_eq_some_iff, segmentStart?_eq_some_iff,
    List.reverse_reverse, List.length_reverse]
  constructor
  · rintro ⟨start, greatest, rfl⟩
    exact ⟨rfl, greatest⟩
  · intro ⟨stop, greatest⟩
    exact ⟨span.start, greatest, stop ▸ rfl⟩

/-- No qualifier stands in a segment outside its own brackets, that is where as many brackets are
opened as closed behind it. -/
def Unqualified (segment : List UInt8) : Prop :=
  ∀ rest, colon :: colon :: rest <:+ segment → rest.count openAngle ≠ rest.count closeAngle

instance (segment : List UInt8) : Decidable (Unqualified segment) :=
  decidable_of_iff
    (∀ part ∈ segment.tails, part.take 2 = [colon, colon] →
      (part.drop 2).count openAngle ≠ (part.drop 2).count closeAngle) <| by
    simp only [List.mem_tails]
    constructor
    · intro none rest final
      exact none _ final rfl
    · intro none part final qualifier
      have whole := List.take_append_drop 2 part
      rw [qualifier] at whole
      rw [← whole] at final
      exact none _ final

/-- Where a segment holds no qualifier, none stands outside its brackets. -/
theorem unqualified_of_not_infix (plain : ¬[colon, colon] <:+: segment) : Unqualified segment := by
  intro rest final _
  have inside : [colon, colon] <:+: colon :: colon :: rest := ⟨[], rest, rfl⟩
  exact plain (inside.trans final.isInfix)

/-- Bytes of which a delimiter has none. -/
structure IsPlain (behind : List UInt8) : Prop where
  /-- No qualifier has a part in them. -/
  colons : colon ∉ behind
  /-- No bracket opens in them. -/
  opening : openAngle ∉ behind
  /-- No bracket closes in them. -/
  closing : closeAngle ∉ behind

/-- Brackets balance in plain bytes. -/
theorem IsPlain.balanced (plain : IsPlain segment) : Balanced segment :=
  balanced_of_not_mem plain.opening plain.closing

/-- No qualifier stands in plain bytes. -/
theorem IsPlain.unqualified (plain : IsPlain segment) : Unqualified segment :=
  unqualified_of_not_infix fun pair => plain.colons (pair.mem (by simp))

/-- What is at the end of plain bytes is plain. -/
theorem IsPlain.of_append (plain : IsPlain (front ++ segment)) : IsPlain segment where
  colons := fun member => plain.colons (List.mem_append_right front member)
  opening := fun member => plain.opening (List.mem_append_right front member)
  closing := fun member => plain.closing (List.mem_append_right front member)

/-- A segment is the one that the reader of brackets finds exactly if it can start where it does
and nothing in it can be taken for a delimiter, which its first byte and the last one in front of
it could be together. -/
theorem isGreatest_opens_iff :
    IsGreatest {start | SplitsAt (Opens 0) (front ++ segment) start} front.length ↔
      ([openAngle] <:+ front ∨ [colon, colon] <:+ front) ∧ Balanced segment ∧
        Unqualified segment ∧ ¬([colon] <:+ front ∧ [colon] <+: segment) := by
  rw [isGreatest_splitsAt_length_iff]
  constructor
  · intro ⟨⟨balanced, delimited⟩, last⟩
    refine ⟨delimited, balanced, ?_, ?_⟩
    · rintro rest ⟨inner, rfl⟩ same
      rw [List.append_cons, List.append_cons] at balanced
      have closed : Balanced rest := Balanced.of_append balanced same
      have none := last (inner ++ [colon, colon]) rest (by simp)
        ⟨closed, .inr ⟨front ++ inner, by simp⟩⟩
      simp at none
    · rintro ⟨⟨before, rfl⟩, rest, rfl⟩
      have same := balanced.equal
      have closed : Balanced rest :=
        Balanced.of_append balanced (by simpa [openAngle, closeAngle, colon] using same)
      have none := last [colon] rest rfl ⟨closed, .inr ⟨before, by simp⟩⟩
      simp at none
  · intro ⟨delimited, balanced, unqualified, seam⟩
    refine ⟨⟨balanced, delimited⟩, ?_⟩
    rintro inner rest rfl ⟨closed, delimited⟩
    -- A delimiter behind the start would be part of the segment, or its second byte would be.
    rcases delimited with opening | qualifier
    · rcases singleton_suffix_append opening with none | ⟨before, rfl⟩
      · exact none
      · exfalso
        have bound := balanced.closed (openAngle :: rest) ⟨before, by simp⟩
        have same := closed.equal
        simp only [List.count_cons_self, add_zero] at bound same
        rw [List.count_cons_of_ne (by decide)] at bound
        omega
    · rcases pair_suffix_append qualifier with none | ⟨rfl, last⟩ | ⟨before, rfl⟩
      · exact none
      · exact absurd ⟨last, List.prefix_append _ _⟩ seam
      · exact absurd closed.equal (unqualified rest ⟨before, by simp⟩)

/-! ## Separators -/

/-- A segment of the qualified style can follow a front: a qualifier ends the front, or a space
ends it and the segment begins with an opening parenthesis. -/
def Separates (front rest : List UInt8) : Prop :=
  [colon, colon] <:+ front ∨ [space] <:+ front ∧ [parenthesis] <+: rest

/-- With one more byte a text is also separated behind that byte, if it ends a qualifier, or in
front of it, if it is a parenthesis behind a space. -/
theorem splitsAt_separates_concat_iff :
    SplitsAt Separates (text ++ [byte]) start ↔
      (start = text.length + 1 ∧ byte = colon ∧ [colon] <:+ text) ∨
        (start = text.length ∧ byte = parenthesis ∧ [space] <:+ text) ∨
          SplitsAt Separates text start := by
  have behind : Separates (text ++ [byte]) [] ↔ byte = colon ∧ [colon] <:+ text := by
    simp [Separates, pair_suffix_concat_iff]
  have within : SplitsAt (fun front rest => Separates front (rest ++ [byte])) text start ↔
      (start = text.length ∧ byte = parenthesis ∧ [space] <:+ text) ∨
        SplitsAt Separates text start := by
    constructor
    · rintro ⟨inside, qualifier | ⟨blank, opening⟩⟩
      · exact .inr ⟨inside, .inl qualifier⟩
      · rcases List.prefix_concat_iff.mp opening with whole | opening
        · have none : (text.drop start).length = 0 := by simpa using congrArg List.length whole
          rw [List.eq_nil_of_length_eq_zero none] at whole
          rw [List.length_drop] at none
          rw [List.take_of_length_le (by omega)] at blank
          exact .inl ⟨by omega, (List.singleton_inj.mp whole).symm, blank⟩
        · exact .inr ⟨inside, .inr ⟨blank, opening⟩⟩
    · rintro (⟨rfl, rfl, blank⟩ | ⟨inside, qualifier | ⟨blank, opening⟩⟩)
      · refine ⟨Nat.le_refl _, .inr ⟨?_, ?_⟩⟩
        · rwa [List.take_length]
        · simp
      · exact ⟨inside, .inl qualifier⟩
      · exact ⟨inside, .inr ⟨blank, opening.trans (List.prefix_append _ _)⟩⟩
  rw [splitsAt_concat_iff, behind, within]

/-- The reader of separators finds the greatest offset at which a segment can start. -/
theorem separatorEnd?_eq_some_iff {reversed : List UInt8} :
    separatorEnd? reversed = some start ↔
      IsGreatest {start | SplitsAt Separates reversed.reverse start} start := by
  fun_induction separatorEnd? reversed with
  | case1 =>
    refine ⟨nofun, fun ⟨⟨_, separated⟩, _⟩ => ?_⟩
    simp [Separates] at separated
  | case2 byte before qualified =>
    obtain ⟨rfl, first⟩ := qualified
    have parts : Separates (before.reverse ++ [colon]) [] :=
      .inl (pair_suffix_concat_iff.mpr ⟨rfl, head?_eq_some_iff_suffix.mp first⟩)
    exact some_eq_some_iff_of_parts parts
  | case3 byte before unqualified opened =>
    obtain ⟨rfl, first⟩ := opened
    rw [head?_eq_some_iff_suffix] at first
    apply some_eq_some_iff_isGreatest
    rw [List.reverse_cons, ← List.length_reverse]
    refine ⟨splitsAt_separates_concat_iff.mpr (.inr (.inl ⟨rfl, rfl, first⟩)), ?_⟩
    intro later separates
    rcases splitsAt_separates_concat_iff.mp separates with ⟨-, same, -⟩ | ⟨rfl, -, -⟩ | separates
    · exact absurd same (by decide)
    · exact Nat.le_refl _
    · exact separates.inside
  | case4 byte before unqualified unopened passed =>
    rw [head?_eq_some_iff_suffix] at unqualified unopened
    simpa only [List.reverse_cons, splitsAt_separates_concat_iff, unqualified, unopened, and_false,
      false_or] using passed

/-- The segment of the qualified style ends in front of the last byte, and starts at the greatest
offset at which the text is separated, unless that is behind the last byte. -/
theorem qualified?_eq_some_iff {span : Span} :
    qualified? (text ++ [byte]).reverse = some span ↔
      span.stop = text.length ∧ span.start ≤ text.length ∧
        IsGreatest {start | SplitsAt Separates (text ++ [byte]) start} span.start := by
  have read : separatorEnd? (text ++ [byte]).reverse = some span.start ↔
      IsGreatest {start | SplitsAt Separates (text ++ [byte]) start} span.start := by
    rw [separatorEnd?_eq_some_iff, List.reverse_reverse]
  rw [← read, qualified?, List.length_reverse, List.length_append, List.length_singleton,
    Nat.add_sub_cancel]
  constructor
  · intro found
    split at found
    · contradiction
    · next start separated =>
      split at found
      · next inside =>
        cases found
        exact ⟨rfl, inside, separated⟩
      · contradiction
  · intro ⟨stop, inside, separated⟩
    rw [← stop] at inside
    simp only [separated, ← stop, if_pos inside]

/-- A segment is the one that the reader of separators finds exactly if it can start where it does
and no separator stands in it, nor one that its first byte ends. -/
theorem isGreatest_separates_iff :
    IsGreatest {start | SplitsAt Separates (front ++ segment) start} front.length ↔
      Separates front segment ∧ ¬[colon, colon] <:+: segment ∧
        ¬[space, parenthesis] <:+: segment ∧ ¬([colon] <:+ front ∧ [colon] <+: segment) := by
  rw [isGreatest_splitsAt_length_iff]
  refine and_congr_right fun separated => ?_
  constructor
  · intro last
    refine ⟨?_, ?_, ?_⟩
    · rintro ⟨inner, rest, rfl⟩
      have none := last (inner ++ [colon, colon]) rest (by simp) (.inl ⟨front ++ inner, by simp⟩)
      simp at none
    · rintro ⟨inner, rest, rfl⟩
      have none := last (inner ++ [space]) (parenthesis :: rest) (by simp)
        (.inr ⟨⟨front ++ inner, by simp⟩, by simp⟩)
      simp at none
    · rintro ⟨⟨before, rfl⟩, rest, rfl⟩
      have none := last [colon] rest rfl (.inl ⟨before, by simp⟩)
      simp at none
  · rintro ⟨unqualified, unopened, seam⟩ inner rest rfl separates
    rcases separates with qualifier | ⟨blank, tail, rfl⟩
    · rcases pair_suffix_append qualifier with none | ⟨rfl, last⟩ | final
      · exact none
      · exact absurd ⟨last, List.prefix_append _ _⟩ seam
      · exact absurd (final.isInfix.trans (List.prefix_append _ _).isInfix) unqualified
    · rcases singleton_suffix_append blank with none | ⟨before, rfl⟩
      · exact none
      · exact absurd ⟨before, tail, by simp⟩ unopened

end EnumNames.Signature
