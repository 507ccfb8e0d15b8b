import EnumNames.Proofs.Text.Seams
import EnumNames.Signature.Rendering
import Mathlib.Data.List.Infix
/-!
# Last segments of paths

A path is cut behind its last qualifier. Any two colons next to each other are a qualifier, also among
three of them, so the segment holds none and does not begin with a colon either: with the colon in
front of it put back it still holds none. That alone says where the cut is, and what stands in front
of it has no part in it. The segment is found by a walk over the bytes from the end of the path toward
the start, which reads no byte outside the path and splits no character.
-/
namespace EnumNames.Signature

open Text

/-- A qualifier stands in a path, with some text on either side of it. -/
def IsQualified (path : String) : Prop := ∃ front back, path = front ++ "::" ++ back

/-- A path comes apart at its last qualifier into a front and a segment. -/
structure IsLastCut (path front segment : String) : Prop where
  /-- The qualifier stands between them. -/
  whole : path = front ++ "::" ++ segment
  /-- No qualifier stands further on, also none that has a colon in common with it. -/
  last : ∀ earlier back, path = earlier ++ "::" ++ back → earlier.utf8ByteSize ≤ front.utf8ByteSize

/-- The last segment of a path, looked for byte after byte from an offset toward the start. It is what
stands behind the first pair of colons that is met. The whole path is left if there is none. -/
def findSegment (path : String) : (offset : Nat) → Except Text.Fault String
  | 0 => .ok path
  | 1 => .ok path
  | before + 2 => do
    let second ← byteAt path (before + 1)
    if second = colon then
      let first ← byteAt path before
      if first = colon then slice path (before + 2) path.utf8ByteSize
      else findSegment path (before + 1)
    else findSegment path (before + 1)

variable {path front segment : String} {chars after : List Char} {left right : List UInt8}
  {offset before : Nat}

/-! ## Qualifiers among characters and bytes -/

/-- Two colons next to each other among the bytes of a path stand between two texts. -/
theorem exists_append_of_pair (cut : bytes path = left ++ colon :: colon :: right) :
    ∃ front back, path = front ++ "::" ++ back ∧ bytes front = left ∧ bytes back = right := by
  obtain ⟨front, char, rest, whole, first, same, behind⟩ := exists_seam (by decide) cut
  have second : bytes rest = [] ++ colon :: right := behind
  obtain ⟨none, next, back, parts, last, empty, final⟩ := exists_seam (by decide) second
  have char_colon : char = ':' := Char.toNat_inj.mp first
  have next_colon : next = ':' := Char.toNat_inj.mp last
  have none_empty : none = "" := bytes_inj.mp empty
  refine ⟨front, back, ?_, same, final⟩
  rw [whole, parts, char_colon, next_colon, none_empty, ← String.toList_inj]
  simp

/-- A path is qualified exactly if two of its bytes next to each other are colons. -/
theorem isQualified_iff_bytes : IsQualified path ↔ [colon, colon] <:+: bytes path := by
  constructor
  · rintro ⟨front, back, rfl⟩
    exact ⟨bytes front, bytes back, by simp only [bytes_append]; rfl⟩
  · rintro ⟨left, right, whole⟩
    have cut : bytes path = left ++ colon :: colon :: right := by simpa using whole.symm
    obtain ⟨front, back, parts, -, -⟩ := exists_append_of_pair cut
    exact ⟨front, back, parts⟩

/-- A path is qualified exactly if two of its characters next to each other are colons. -/
theorem isQualified_iff_toList : IsQualified path ↔ [':', ':'] <:+: path.toList := by
  constructor
  · rintro ⟨front, back, rfl⟩
    exact ⟨front.toList, back.toList, by simp⟩
  · rintro ⟨front, back, whole⟩
    refine ⟨String.ofList front, String.ofList back, ?_⟩
    rw [← String.toList_inj, ← whole]
    simp

instance (path : String) : Decidable (IsQualified path) :=
  decidable_of_iff _ isQualified_iff_toList.symm

/-- A colon put in front of a segment makes it qualified exactly if it was, or if it begins with a
colon. -/
theorem isQualified_colon_append_iff :
    IsQualified (":" ++ segment) ↔ segment.toList.head? = some ':' ∨ IsQualified segment := by
  have chars : (":" ++ segment).toList = ':' :: segment.toList := by simp
  have seam : [':', ':'] <+: ':' :: segment.toList ↔ segment.toList.head? = some ':' := by
    rw [List.prefix_cons_inj, singleton_prefix_iff]
  rw [isQualified_iff_toList, isQualified_iff_toList, chars, List.infix_cons_iff, seam]

/-! ## What follows the last qualifier -/

/-- Nothing follows a qualifier exactly if there is none. -/
theorem afterQualifier?_eq_none_iff :
    afterQualifier? chars = none ↔ ¬[':', ':'] <:+: chars := by
  induction chars with
  | nil => simp [afterQualifier?]
  | cons char rest hypothesis =>
    have first : [':', ':'] <+: char :: rest ↔ char = ':' ∧ rest.head? = some ':' := by
      rw [List.cons_prefix_cons, singleton_prefix_iff, eq_comm]
    rw [List.infix_cons_iff, not_or, first, ← hypothesis, afterQualifier?]
    cases afterQualifier? rest with
    | none => simp
    | some segment => simp

/-- What follows a qualifier follows the last one if a colon in front of it makes no other. -/
theorem afterQualifier?_append (plain : ¬[':', ':'] <:+: ':' :: after) (front : List Char) :
    afterQualifier? (front ++ ':' :: ':' :: after) = some after := by
  induction front with
  | nil =>
    have none := afterQualifier?_eq_none_iff.mpr plain
    rw [List.nil_append, afterQualifier?, none]
    rfl
  | cons char rest hypothesis => rw [List.cons_append, afterQualifier?, hypothesis]

/-- What follows the last qualifier, and a colon in front of it makes no other. -/
theorem exists_append_of_afterQualifier? (found : afterQualifier? chars = some after) :
    ¬[':', ':'] <:+: ':' :: after ∧ ∃ front, chars = front ++ ':' :: ':' :: after := by
  induction chars with
  | nil => cases found
  | cons char rest hypothesis =>
    rw [afterQualifier?] at found
    cases later : afterQualifier? rest with
    | some segment =>
      rw [later] at found hypothesis
      obtain ⟨plain, front, whole⟩ := hypothesis found
      exact ⟨plain, char :: front, by rw [whole]; rfl⟩
    | none =>
      simp only [later] at found
      split at found
      · next qualifier =>
        obtain ⟨rfl, next⟩ := qualifier
        obtain ⟨tail, rfl⟩ := List.head?_eq_some_iff.mp next
        cases found
        exact ⟨afterQualifier?_eq_none_iff.mp later, [], rfl⟩
      · cases found

/-! ## The last segment -/

/-- A path that is not qualified is its own last segment. -/
theorem lastSegment_of_not_isQualified (plain : ¬IsQualified path) : lastSegment path = path := by
  have none := afterQualifier?_eq_none_iff.mpr (mt isQualified_iff_toList.mpr plain)
  rw [lastSegment, none, Option.getD_none, String.ofList_toList]

/-- A path without colons is its own last segment. -/
theorem lastSegment_of_not_mem (absent : ':' ∉ path.toList) : lastSegment path = path := by
  apply lastSegment_of_not_isQualified
  rw [isQualified_iff_toList]
  exact fun pair => absent (pair.mem (by simp))

/-- What follows a qualifier is the last segment if a colon in front of it makes no other. -/
theorem lastSegment_append (plain : ¬IsQualified (":" ++ segment)) (front : String) :
    lastSegment (front ++ "::" ++ segment) = segment := by
  have chars : (front ++ "::" ++ segment).toList =
      front.toList ++ ':' :: ':' :: segment.toList := by simp
  have fresh : ¬[':', ':'] <:+: ':' :: segment.toList := by
    rw [isQualified_iff_toList] at plain
    simpa using plain
  rw [lastSegment, chars, afterQualifier?_append fresh, Option.getD_some, String.ofList_toList]

/-- The last segment of a qualified path follows a qualifier, and a colon in front of it makes no
other. -/
theorem exists_append_lastSegment (qualified : IsQualified path) :
    ¬IsQualified (":" ++ lastSegment path) ∧ ∃ front, path = front ++ "::" ++ lastSegment path := by
  cases found : afterQualifier? path.toList with
  | none => exact absurd (isQualified_iff_toList.mp qualified) (afterQualifier?_eq_none_iff.mp found)
  | some after =>
    obtain ⟨plain, front, whole⟩ := exists_append_of_afterQualifier? found
    have segment : lastSegment path = String.ofList after := by
      rw [lastSegment, found, Option.getD_some]
    rw [segment, isQualified_iff_toList]
    refine ⟨by simpa using plain, String.ofList front, ?_⟩
    rw [← String.toList_inj, whole]
    simp

/-- The last segment of a path is not qualified. -/
theorem not_isQualified_lastSegment (path : String) : ¬IsQualified (lastSegment path) := by
  by_cases qualified : IsQualified path
  · have plain := (exists_append_lastSegment qualified).1
    exact fun inner => plain (isQualified_colon_append_iff.mpr (.inr inner))
  · rw [lastSegment_of_not_isQualified qualified]
    exact qualified

/-- The last segment of a path holds no qualifier. -/
theorem lastSegment_unqualified (path : String) :
    ¬[colon, colon] <:+: bytes (lastSegment path) :=
  mt isQualified_iff_bytes.mpr (not_isQualified_lastSegment path)

/-- The last segment of a path is at its end. -/
theorem bytes_lastSegment_suffix (path : String) : bytes (lastSegment path) <:+ bytes path := by
  by_cases qualified : IsQualified path
  · obtain ⟨-, front, whole⟩ := exists_append_lastSegment qualified
    have joined : bytes path = bytes (front ++ "::") ++ bytes (lastSegment path) := by
      rw [← bytes_append, ← whole]
    exact ⟨_, joined.symm⟩
  · rw [lastSegment_of_not_isQualified qualified]

/-- A path comes apart at its last qualifier where a colon in front of the segment makes no other. -/
theorem isLastCut_of_plain (plain : ¬IsQualified (":" ++ segment)) (front : String) :
    IsLastCut (front ++ "::" ++ segment) front segment := by
  refine ⟨rfl, fun earlier back same => ?_⟩
  by_contra further
  -- The front and its first colon would lie in front of the other qualifier.
  have longer : (bytes front ++ [colon]).length ≤ (bytes earlier).length := by
    rw [List.length_append, List.length_singleton, length_bytes, length_bytes]
    omega
  have cut : bytes front ++ [colon] ++ (colon :: bytes segment) =
      bytes earlier ++ (colon :: colon :: bytes back) := by
    have joined := congrArg bytes same
    have colons : bytes "::" = [colon, colon] := rfl
    simp only [bytes_append, colons] at joined
    simpa using joined
  obtain ⟨between, parts⟩ := List.prefix_of_prefix_length_le ⟨_, cut⟩ (List.prefix_append _ _) longer
  rw [← parts, List.append_assoc _ between] at cut
  have behind := List.append_cancel_left cut
  apply plain
  rw [isQualified_iff_bytes, bytes_append]
  exact ⟨between, bytes back, by rw [List.append_assoc]; exact behind.symm⟩

/-! ## The walk over the bytes -/

/-- One step of the walk: the two bytes in front of the offset are there, and either they are a
qualifier or the walk goes on one byte earlier. -/
theorem findSegment_step (inside : before + 2 ≤ path.utf8ByteSize) :
    findSegment path (before + 2) =
      if [colon, colon] <+: (bytes path).drop before then slice path (before + 2) path.utf8ByteSize
      else findSegment path (before + 1) := by
  have place : before + 1 < (bytes path).length := inside
  have second : byteAt path (before + 1) = .ok (bytes path)[before + 1] :=
    byteAt_eq_ok_iff.mpr (List.getElem?_eq_getElem place)
  have first : byteAt path before = .ok (bytes path)[before] :=
    byteAt_eq_ok_iff.mpr (List.getElem?_eq_getElem (Nat.lt_of_succ_lt place))
  have pair : [colon, colon] <+: (bytes path).drop before ↔
      (bytes path)[before + 1] = colon ∧ (bytes path)[before] = colon := by
    rw [List.drop_eq_getElem_cons (Nat.lt_of_succ_lt place), List.drop_eq_getElem_cons place,
      List.cons_prefix_cons, List.cons_prefix_cons, and_iff_left List.nil_prefix]
    exact and_comm.trans (and_congr eq_comm eq_comm)
  rw [findSegment, second, first]
  simp only [pair, bind, Except.bind]
  by_cases colons : (bytes path)[before + 1] = colon
  · simp only [colons, true_and, if_true]
  · simp only [colons, false_and, if_false]

/-- Where the walk meets a qualifier, it takes what stands behind it, and if no other was met that is
the last segment. -/
theorem slice_behind_pair (pair : [colon, colon] <+: (bytes path).drop before)
    (fresh : ¬[colon, colon] <:+: (bytes path).drop (before + 1)) :
    slice path (before + 2) path.utf8ByteSize = .ok (lastSegment path) := by
  obtain ⟨right, behind⟩ := pair
  have cut : bytes path = (bytes path).take before ++ colon :: colon :: right := by
    conv_lhs => rw [← List.take_append_drop before (bytes path), ← behind]
    rfl
  obtain ⟨front, back, whole, front_bytes, back_bytes⟩ := exists_append_of_pair cut
  have plain : ¬IsQualified (":" ++ back) := by
    have rest : (bytes path).drop (before + 1) = bytes (":" ++ back) := by
      rw [← List.drop_drop, ← behind, bytes_append, back_bytes]
      rfl
    rw [isQualified_iff_bytes, ← rest]
    exact fresh
  have segment : lastSegment path = back := by
    rw [whole, lastSegment_append plain]
  have length : before + 2 + right.length = path.utf8ByteSize := by
    have size := congrArg List.length behind
    rw [List.length_append, List.length_drop, length_bytes] at size
    simp only [List.length_cons, List.length_nil] at size
    omega
  rw [segment]
  refine slice_eq_ok_iff.mpr ⟨by omega, Nat.le_refl _, ?_⟩
  rw [← length_bytes, List.take_length, back_bytes, ← List.drop_drop, ← behind]
  rfl

/-- At the start of the path no two bytes are left to look at. -/
theorem findSegment_of_le_one (short : offset ≤ 1) (plain : ¬IsQualified path) :
    findSegment path offset = .ok (lastSegment path) := by
  rw [lastSegment_of_not_isQualified plain]
  match offset, short with
  | 0, _ => rfl
  | 1, _ => rfl

/-- From an offset behind which the walk has met no qualifier it finds the last segment. -/
theorem findSegment_eq (inside : offset ≤ path.utf8ByteSize)
    (fresh : ¬[colon, colon] <:+: (bytes path).drop (offset - 1)) :
    findSegment path offset = .ok (lastSegment path) := by
  induction offset with
  | zero => exact findSegment_of_le_one (Nat.zero_le 1) (mt isQualified_iff_bytes.mp fresh)
  | succ offset hypothesis =>
    cases offset with
    | zero => exact findSegment_of_le_one (Nat.le_refl 1) (mt isQualified_iff_bytes.mp fresh)
    | succ before =>
      rw [Nat.add_sub_cancel] at fresh
      rw [findSegment_step inside]
      by_cases pair : [colon, colon] <+: (bytes path).drop before
      · rw [if_pos pair, slice_behind_pair pair fresh]
      · rw [if_neg pair]
        refine hypothesis (Nat.le_of_succ_le inside) ?_
        have place : before < (bytes path).length := by
          rw [length_bytes]
          omega
        rw [Nat.add_sub_cancel, List.drop_eq_getElem_cons place, List.infix_cons_iff,
          ← List.drop_eq_getElem_cons place]
        exact not_or.mpr ⟨pair, fresh⟩

/-- The walk from the end of a path finds its last segment, whatever the path. -/
theorem findSegment_utf8ByteSize (path : String) :
    findSegment path path.utf8ByteSize = .ok (lastSegment path) := by
  apply findSegment_eq (Nat.le_refl _)
  intro pair
  have length := pair.length_le
  rw [List.length_drop, length_bytes] at length
  simp only [List.length_cons, List.length_nil] at length
  omega

/-- The last segment of a path, exactly. The walk over its bytes always ends in it, without a byte
outside the path and without a character split. In a qualified path it is what stands behind the last
qualifier, and it begins with no colon; any other path is its own last segment. The last segment is
never qualified, so it is its own last segment. Whatever path stands in front of a segment that is not
qualified and begins with no colon, the signature of a value is the one with the segment alone, and
it is refused for want of room exactly if that is. -/
theorem last_segment_exact (path : String) :
    findSegment path path.utf8ByteSize = .ok (lastSegment path) ∧
    (IsQualified path → (∃ front, IsLastCut path front (lastSegment path)) ∧
      (lastSegment path).toList.head? ≠ some ':') ∧
    (¬IsQualified path → lastSegment path = path) ∧
    ¬IsQualified (lastSegment path) ∧
    lastSegment (lastSegment path) = lastSegment path ∧
    ∀ segment, ¬IsQualified segment → segment.toList.head? ≠ some ':' → ∀ style value,
      render style (path ++ "::" ++ segment) value = render style segment value := by
  have unqualified := not_isQualified_lastSegment path
  refine ⟨findSegment_utf8ByteSize path, ?_, lastSegment_of_not_isQualified, unqualified,
    lastSegment_of_not_isQualified unqualified, ?_⟩
  · intro qualified
    obtain ⟨plain, front, whole⟩ := exists_append_lastSegment qualified
    refine ⟨⟨front, ?_⟩, fun colons => plain (isQualified_colon_append_iff.mpr (.inl colons))⟩
    have cut := isLastCut_of_plain plain front
    rwa [← whole] at cut
  · intro segment plain uncoloned style value
    have fresh : ¬IsQualified (":" ++ segment) := by
      rw [isQualified_colon_append_iff, not_or]
      exact ⟨uncoloned, plain⟩
    have same : lastSegment (path ++ "::" ++ segment) = lastSegment segment := by
      rw [lastSegment_append fresh, lastSegment_of_not_isQualified plain]
    rw [render, render, Style.undeclared, Style.undeclared, same]

/-- A path in which two qualifiers have a colon in common, and a segment with one colon, alone and
behind that path. -/
theorem last_segment_exact_overlapping :
    let path := "é:::B"
    let segment := "E:é"
    (IsQualified path ∧ ∃ front, IsLastCut path front "B") ∧
      (¬IsQualified segment ∧ segment.toList.head? ≠ some ':' ∧ lastSegment segment = segment) ∧
      render .bracketed (path ++ "::" ++ segment) (-5) =
        .ok "auto __cdecl strenum::stringify<(enum E:é)-0x5>(void)" := by
  intro path segment
  have qualified : IsQualified path := by decide
  have plain : ¬IsQualified segment := by decide
  have uncoloned : segment.toList.head? ≠ some ':' := by decide
  have last : lastSegment path = "B" := by decide
  have rendered : render .bracketed segment (-5) =
      .ok "auto __cdecl strenum::stringify<(enum E:é)-0x5>(void)" := by decide +kernel
  obtain ⟨-, cut, -, -, -, behind⟩ := last_segment_exact path
  obtain ⟨-, -, whole, -⟩ := last_segment_exact segment
  rw [last] at cut
  refine ⟨⟨qualified, (cut qualified).1⟩, ⟨plain, uncoloned, whole plain⟩, ?_⟩
  rw [behind segment plain uncoloned, rendered]

end EnumNames.Signature
