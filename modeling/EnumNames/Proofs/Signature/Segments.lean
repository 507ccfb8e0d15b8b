import EnumNames.Proofs.Signature.RoundTrip
import EnumNames.Proofs.Text.Boundaries
import Mathlib.Data.List.TakeWhile
/-!
# Segments between characters

The readers look for single bytes, and a segment is a text of its own only if it splits no
character. Every delimiter ends in a byte below 128, so a segment starts at a boundary. In the
bracketed style it ends in front of a bracket, at a boundary too. In the qualified style it ends in
front of the last byte of the signature, and if that byte is only a part of the last character, no
segment can be taken.
-/
namespace EnumNames.Signature

open Text

variable {style : Style} {signature : String} {span : Span} {front tail rest text : List UInt8}
  {byte : UInt8} {start : Nat}

/-- The qualified style leaves out the last byte of the signature, and that byte is only a part of
the last character. -/
def Style.CutsCharacter (style : Style) (signature : String) : Prop :=
  style = .qualified ∧ ∃ last ∈ (bytes signature).getLast?, 128 ≤ last

/-! ## Where a segment is found -/

/-- Bytes with a closing bracket come apart at the last one. -/
theorem exists_last_closeAngle (member : closeAngle ∈ text) :
    ∃ front tail, text = front ++ closeAngle :: tail ∧ closeAngle ∉ tail := by
  obtain ⟨behind, before, whole, fresh⟩ :=
    List.eq_append_cons_of_mem (List.mem_reverse.mpr member)
  refine ⟨before.reverse, behind.reverse, ?_, ?_⟩
  · rw [← List.reverse_inj, whole]
    simp
  · rwa [List.mem_reverse]

/-- Without a closing bracket there is no segment of the bracketed style. -/
theorem bracketed?_eq_none (absent : closeAngle ∉ text) : bracketed? text.reverse = none := by
  have skipped : text.reverse.dropWhile (· ≠ closeAngle) = [] := by
    rw [List.dropWhile_eq_nil_iff]
    intro byte member
    rw [decide_eq_true_eq]
    intro same
    exact absent (List.mem_reverse.mp (same ▸ member))
  rw [bracketed?, skipped]

/-- A text without bytes is empty. -/
theorem bytes_eq_nil_iff : bytes signature = [] ↔ signature = "" := by
  rw [← bytes_inj]
  rfl

/-- A text that is not empty has a last byte. -/
theorem exists_last_byte (nonempty : signature ≠ "") :
    ∃ front byte, bytes signature = front ++ [byte] :=
  (List.eq_nil_or_concat' (bytes signature)).resolve_left (mt bytes_eq_nil_iff.mp nonempty)

/-- A signature that is not recognized is all that the readers refuse. -/
theorem locate_eq_error_iff {refusal : Refusal} :
    locate style signature = .error refusal ↔
      refusal = .unrecognizedSignature ∧ ∀ span, locate style signature ≠ .ok span := by
  unfold locate
  cases (bytes signature).reverse with
  | nil => simp
  | cons byte before =>
    cases style with
    | bracketed =>
      cases found : bracketed? (byte :: before) with
      | none => simpa [found] using eq_comm
      | some span => simp [found]
    | qualified =>
      cases found : qualified? (byte :: before) with
      | none => simpa [found] using eq_comm
      | some span => simp [found]

/-- The segment of an empty signature is empty. -/
theorem locate_empty (style : Style) : locate style "" = .ok ⟨0, 0⟩ := rfl

/-- The segment of the bracketed style ends in front of the last closing bracket, and starts at the
greatest offset at which a segment that ends there can. -/
theorem locate_bracketed_eq_ok_iff (cut : bytes signature = front ++ closeAngle :: tail)
    (last : closeAngle ∉ tail) :
    locate .bracketed signature = .ok span ↔
      span.stop = front.length ∧
        IsGreatest {start | SplitsAt (Opens 0) front start} span.start := by
  rw [locate_eq_ok_iff (by simp [cut]), cut]
  exact bracketed?_eq_some_iff last

/-- A signature of the bracketed style without a closing bracket is refused. -/
theorem locate_bracketed_of_not_mem (nonempty : signature ≠ "")
    (absent : closeAngle ∉ bytes signature) :
    locate .bracketed signature = .error .unrecognizedSignature := by
  rw [locate_eq_error_iff]
  refine ⟨rfl, fun span located => ?_⟩
  rw [locate_eq_ok_iff (mt bytes_eq_nil_iff.mp nonempty)] at located
  simp only [bracketed?_eq_none absent] at located
  contradiction

/-- The segment of the qualified style ends in front of the last byte, and starts at the greatest
offset at which the signature is separated, unless that is behind the last byte. -/
theorem locate_qualified_eq_ok_iff (cut : bytes signature = front ++ [byte]) :
    locate .qualified signature = .ok span ↔
      span.stop = front.length ∧ span.start ≤ front.length ∧
        IsGreatest {start | SplitsAt Separates (front ++ [byte]) start} span.start := by
  rw [locate_eq_ok_iff (by simp [cut]), cut]
  exact qualified?_eq_some_iff

/-! ## Segments and characters -/

/-- Every delimiter ends in a byte below 128. -/
theorem Style.Delimits.exists_ascii (delimited : style.Delimits front rest) :
    ∃ byte, byte < 128 ∧ [byte] <:+ front := by
  have of_qualifier : [colon, colon] <:+ front → ∃ byte, byte < 128 ∧ [byte] <:+ front :=
    fun qualifier => ⟨colon, by decide, (List.suffix_cons _ _).trans qualifier⟩
  cases style with
  | bracketed =>
    obtain ⟨-, opening | qualifier⟩ := delimited
    · exact ⟨openAngle, by decide, opening⟩
    · exact of_qualifier qualifier
  | qualified =>
    rcases delimited with qualifier | ⟨blank, -⟩
    · exact of_qualifier qualifier
    · exact ⟨space, by decide, blank⟩

/-- A segment starts at a boundary. -/
theorem isBoundary_of_splitsAt (splits : SplitsAt style.Delimits text start)
    (begins : text <+: bytes signature) : IsBoundary signature start := by
  obtain ⟨byte, ascii, final⟩ := Style.Delimits.exists_ascii splits.parts
  obtain ⟨rest, whole⟩ := begins
  have size : text.length + rest.length = signature.utf8ByteSize := by
    rw [← length_bytes, ← whole, List.length_append]
  have inside := splits.inside
  have same : (bytes signature).take start = text.take start := by
    rw [← whole, List.take_append_of_le_length inside]
  exact isBoundary_of_suffix ascii (by omega) (same ▸ final)

/-- A segment of the bracketed style lies between two boundaries, in front of the closing
bracket. -/
theorem boundaries_of_locate_bracketed (cut : bytes signature = front ++ closeAngle :: tail)
    (last : closeAngle ∉ tail) (located : locate .bracketed signature = .ok span) :
    span.start ≤ span.stop ∧ span.stop < signature.utf8ByteSize ∧
      IsBoundary signature span.start ∧ IsBoundary signature span.stop := by
  obtain ⟨stop, splits, -⟩ := (locate_bracketed_eq_ok_iff cut last).mp located
  have size : front.length + (tail.length + 1) = signature.utf8ByteSize := by
    rw [← length_bytes, cut, List.length_append, List.length_cons]
  refine ⟨stop ▸ splits.inside, by omega, ?_, ?_⟩
  · have delimited : SplitsAt (Style.Delimits .bracketed) front span.start := splits
    exact isBoundary_of_splitsAt delimited (cut ▸ List.prefix_append _ _)
  · rw [stop]
    exact (isBoundary_of_ascii (by decide) cut).1

/-- A segment of the qualified style starts at a boundary, and ends at one exactly if the last byte
of the signature is a character by itself. -/
theorem boundaries_of_locate_qualified (cut : bytes signature = front ++ [byte])
    (located : locate .qualified signature = .ok span) :
    span.start ≤ span.stop ∧ span.stop < signature.utf8ByteSize ∧
      IsBoundary signature span.start ∧ (IsBoundary signature span.stop ↔ byte < 128) := by
  obtain ⟨stop, inside, splits, -⟩ := (locate_qualified_eq_ok_iff cut).mp located
  have size : front.length + 1 = signature.utf8ByteSize := by
    rw [← length_bytes, cut, List.length_append, List.length_singleton]
  refine ⟨by omega, by omega, ?_, ?_⟩
  · have delimited : SplitsAt (Style.Delimits .qualified) (front ++ [byte]) span.start := splits
    exact isBoundary_of_splitsAt delimited (cut ▸ List.prefix_rfl)
  · rw [stop]
    exact isBoundary_last_iff cut

/-- Wherever a segment is found, its offsets are in order and inside the signature, and it starts at
a boundary. It ends at one unless the style cuts the last character. -/
theorem boundaries_of_locate (located : locate style signature = .ok span) :
    span.start ≤ span.stop ∧ span.stop ≤ signature.utf8ByteSize ∧
      IsBoundary signature span.start ∧
      (IsBoundary signature span.stop ↔ ¬style.CutsCharacter signature) := by
  by_cases empty : signature = ""
  · subst empty
    obtain rfl : ⟨0, 0⟩ = span := Except.ok.inj ((locate_empty style).symm.trans located)
    have uncut : ¬style.CutsCharacter "" := by
      rintro ⟨-, last, member, -⟩
      cases member
    exact ⟨Nat.le_refl _, Nat.le_refl _, by decide, iff_of_true (by decide) uncut⟩
  cases style with
  | bracketed =>
    have closed : closeAngle ∈ bytes signature := by
      by_contra absent
      rw [locate_bracketed_of_not_mem empty absent] at located
      contradiction
    obtain ⟨front, tail, cut, last⟩ := exists_last_closeAngle closed
    obtain ⟨ordered, inside, first, second⟩ := boundaries_of_locate_bracketed cut last located
    refine ⟨ordered, Nat.le_of_lt inside, first, iff_of_true second ?_⟩
    rintro ⟨same, -⟩
    contradiction
  | qualified =>
    obtain ⟨front, byte, cut⟩ := exists_last_byte empty
    obtain ⟨ordered, inside, first, second⟩ := boundaries_of_locate_qualified cut located
    refine ⟨ordered, Nat.le_of_lt inside, first, ?_⟩
    rw [second, Style.CutsCharacter, cut]
    simp

/-! ## Failures -/

/-- A signature is refused exactly if it has no segment. -/
theorem decode_eq_refusal_iff {refusal : Refusal} :
    decode style signature = .error (.refusal refusal) ↔
      locate style signature = .error refusal := by
  rw [decode]
  cases locate style signature with
  | error cause => simp
  | ok span =>
    cases taken : slice signature span.start span.stop with
    | error fault => simp [taken]
    | ok segment => simp [taken]

/-- Decoding aborts exactly if there is a segment that cannot be taken. -/
theorem decode_eq_abort_iff {abort : Abort} :
    decode style signature = .error (.abort abort) ↔
      ∃ span fault, locate style signature = .ok span ∧
        slice signature span.start span.stop = .error fault ∧ abort = .text fault := by
  rw [decode]
  cases locate style signature with
  | error cause => simp
  | ok span =>
    cases taken : slice signature span.start span.stop with
    | error fault => simp [taken, eq_comm]
    | ok segment => simp [taken]

/-- A segment that is found can be taken unless the style cuts the last character. -/
theorem slice_located_eq_error_iff {fault : Text.Fault}
    (located : locate style signature = .ok span) :
    slice signature span.start span.stop = .error fault ↔
      fault = .splitsCharacter ∧ style.CutsCharacter signature := by
  obtain ⟨ordered, inside, first, second⟩ := boundaries_of_locate located
  rw [slice_eq_error_iff ordered inside]
  refine and_congr_right fun _ => ?_
  constructor
  · rintro ⟨-, split⟩
    by_contra uncut
    exact split ⟨first, second.mpr uncut⟩
  · intro cut
    have unbounded : ¬IsBoundary signature span.stop := fun boundary => second.mp boundary cut
    -- A segment without bytes would end where it starts, at a boundary.
    exact ⟨fun same => unbounded (same ▸ first), fun both => unbounded both.2⟩

/-- How decoding fails. A signature without a segment is refused as such, and nothing else is. What
ends the evaluation is only that a segment was found and that the style cuts the last character:
never in the bracketed style, and in the qualified style for the signatures that do not end in a
byte below 128. In all other cases the segment lies between two boundaries. -/
theorem decode_eq_error_iff (style : Style) (signature : String) :
    (∀ span, locate style signature = .ok span →
      span.start ≤ span.stop ∧ span.stop ≤ signature.utf8ByteSize ∧
        IsBoundary signature span.start ∧
        (IsBoundary signature span.stop ↔ ¬style.CutsCharacter signature)) ∧
    ∀ failure, decode style signature = .error failure ↔
      (failure = .refusal .unrecognizedSignature ∧ ∀ span, locate style signature ≠ .ok span) ∨
        (failure = .abort (.text .splitsCharacter) ∧ style.CutsCharacter signature ∧
          ∃ span, locate style signature = .ok span) := by
  refine ⟨fun _ => boundaries_of_locate, fun failure => ?_⟩
  cases failure with
  | refusal refusal =>
    rw [decode_eq_refusal_iff, locate_eq_error_iff]
    simp
  | abort abort =>
    rw [decode_eq_abort_iff]
    constructor
    · rintro ⟨span, fault, located, failed, rfl⟩
      obtain ⟨rfl, cut⟩ := (slice_located_eq_error_iff located).mp failed
      exact .inr ⟨rfl, cut, span, located⟩
    · rintro (⟨same, -⟩ | ⟨same, cut, span, located⟩)
      · contradiction
      · cases same
        exact ⟨span, .splitsCharacter, located,
          (slice_located_eq_error_iff located).mpr ⟨rfl, cut⟩, rfl⟩

/-- The last character of a signature of the qualified style takes two bytes, and only the second
one is left out: the name cannot be taken. -/
theorem decode_qualified_cuts_character :
    locate .qualified "a::bé" = .ok ⟨3, 5⟩ ∧ ¬IsBoundary "a::bé" 5 ∧
      decode .qualified "a::bé" = .error (.abort (.text .splitsCharacter)) := by
  decide

end EnumNames.Signature
