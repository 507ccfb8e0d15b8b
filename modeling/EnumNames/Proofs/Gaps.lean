import EnumNames.Proofs.Arguments
import Mathlib.Data.List.Induction
/-!
# Gaps are read alike

The signature of a value that no enumerator has shows the value behind the name of the type. No byte
of a delimiter is among the sign, the mark and the digits, so the reader of brackets passes over
them, and where it stops is decided by the name alone, however its brackets are left open. There
the segment begins with a byte of the name or with the parenthesis behind it, never with one of the
value. So all values without a name come out alike: one of them is a gap in a table exactly if
every other one is.
-/
namespace EnumNames

open Text Signature

namespace Signature

variable {style : Style} {signature type front plain plain' : String} {span : Span} {value : Int}
  {before behind : List UInt8} {nested start : Nat}

/-- In front of plain bytes a segment can start at the same offsets as without them. -/
theorem splitsAt_opens_append_iff (plain : IsPlain behind) :
    SplitsAt (Opens nested) (before ++ behind) start ↔ SplitsAt (Opens nested) before start := by
  induction behind using List.reverseRecOn with
  | nil => rw [List.append_nil]
  | append_singleton earlier byte hypothesis =>
    obtain ⟨colons, opening, closing⟩ := plain
    simp only [List.mem_append, List.mem_singleton, not_or] at colons opening closing
    have unqualified : ¬(nested = 0 ∧ byte = colon ∧ [colon] <:+ before ++ earlier) := by
      rintro ⟨-, same, -⟩
      exact colons.2 same.symm
    rw [← List.append_assoc,
      splitsAt_opens_concat_iff_of_ne (Ne.symm closing.2) (Ne.symm opening.2) unqualified]
    exact hypothesis ⟨colons.1, opening.1, closing.1⟩

/-- Plain bytes behind a value move the end of the segment and not its start. -/
theorem locate_bracketed_append_iff (passed : IsPlain (bytes plain)) :
    locate .bracketed (Style.signature .bracketed (front ++ plain)) = .ok span ↔
      span.stop = (Style.opening .bracketed ++ (front ++ plain)).utf8ByteSize ∧
        IsGreatest {start | SplitsAt (Opens 0) (bytes (Style.opening .bracketed ++ front)) start}
          span.start := by
  have whole : bytes (Style.opening .bracketed ++ (front ++ plain)) =
      bytes (Style.opening .bracketed ++ front) ++ bytes plain := by
    rw [← String.append_assoc, bytes_append]
  rw [locate_signature_eq_ok_iff, whole]
  simp only [Style.Delimits, splitsAt_opens_append_iff passed]

/-- Whatever plain bytes stand behind a value, a segment starts at the same offset. -/
theorem exists_locate_bracketed_append (passed : IsPlain (bytes plain))
    (passed' : IsPlain (bytes plain'))
    (located : locate .bracketed (Style.signature .bracketed (front ++ plain)) = .ok span) :
    ∃ stop, locate .bracketed (Style.signature .bracketed (front ++ plain')) =
      .ok ⟨span.start, stop⟩ := by
  obtain ⟨-, greatest⟩ := (locate_bracketed_append_iff passed).mp located
  exact ⟨_, (locate_bracketed_append_iff passed').mpr ⟨rfl, greatest⟩⟩

/-- A segment of the bracketed style is taken and told from an integer. -/
theorem decode_of_locate_bracketed (located : locate .bracketed signature = .ok span) :
    ∃ segment, bytes segment = ((bytes signature).take span.stop).drop span.start ∧
      decode .bracketed signature = .ok (if isInteger segment then none else some segment) := by
  cases taken : slice signature span.start span.stop with
  | error fault =>
    obtain ⟨-, qualified, -⟩ := (slice_located_eq_error_iff located).mp taken
    cases qualified
  | ok segment =>
    obtain ⟨-, -, exact⟩ := slice_eq_ok_iff.mp taken
    exact ⟨segment, exact, decode_eq_ok_iff.mpr ⟨span, segment, located, taken, rfl⟩⟩

/-- The first byte of a segment tells whether it shows an integer. -/
theorem isInteger_congr {first second : String}
    (same : (bytes first).head? = (bytes second).head?) : isInteger first = isInteger second := by
  unfold isInteger
  cases shown : bytes first with
  | nil =>
    rw [shown, List.head?_nil, eq_comm, List.head?_eq_none_iff] at same
    rw [same]
  | cons byte rest =>
    rw [shown, List.head?_cons, eq_comm, List.head?_eq_some_iff] at same
    obtain ⟨rest', shown'⟩ := same
    rw [shown']

/-- Where a segment starts in front of plain bytes, it has the first byte of the front behind that
offset, or if there is none, the first plain byte. -/
theorem head?_of_locate_bracketed (passed : IsPlain (bytes plain)) {segment : String}
    (located : locate .bracketed (Style.signature .bracketed (front ++ plain)) = .ok span)
    (taken : bytes segment = ((bytes (Style.signature .bracketed (front ++ plain))).take
      span.stop).drop span.start) :
    (bytes segment).head? = ((bytes (Style.opening .bracketed ++ front)).drop span.start).head?.or
      (bytes plain).head? := by
  obtain ⟨stop, splits, -⟩ := (locate_bracketed_append_iff passed).mp located
  have cut : (bytes (Style.signature .bracketed (front ++ plain))).take span.stop =
      bytes (Style.opening .bracketed ++ front) ++ bytes plain := by
    rw [stop, Style.signature, bytes_append, List.take_left' (length_bytes _),
      ← String.append_assoc, bytes_append]
  rw [taken, cut, List.drop_append_of_le_length splits.inside, List.head?_append]

/-- Whether a name is read does not depend on the plain bytes behind the front but for their first
one. -/
theorem isSome_decode_append_congr (passed : IsPlain (bytes plain))
    (passed' : IsPlain (bytes plain')) (same : (bytes plain).head? = (bytes plain').head?) :
    (decode .bracketed (Style.signature .bracketed (front ++ plain))).map Option.isSome =
      (decode .bracketed (Style.signature .bracketed (front ++ plain'))).map Option.isSome := by
  cases located : locate .bracketed (Style.signature .bracketed (front ++ plain)) with
  | ok span =>
    obtain ⟨stop, located'⟩ := exists_locate_bracketed_append passed passed' located
    obtain ⟨segment, taken, read⟩ := decode_of_locate_bracketed located
    obtain ⟨segment', taken', read'⟩ := decode_of_locate_bracketed located'
    have first := head?_of_locate_bracketed passed located taken
    have first' := head?_of_locate_bracketed passed' located' taken'
    have shown : isInteger segment = isInteger segment' :=
      isInteger_congr (by rw [first, first', same])
    rw [read, read', shown]
    cases isInteger segment' <;> rfl
  | error refusal =>
    have unlocated : locate .bracketed (Style.signature .bracketed (front ++ plain')) =
        .error refusal := by
      obtain ⟨rfl, none⟩ := locate_eq_error_iff.mp located
      refine locate_eq_error_iff.mpr ⟨rfl, fun span found => ?_⟩
      obtain ⟨stop, found'⟩ := exists_locate_bracketed_append passed' passed found
      exact none _ found'
    rw [decode_eq_refusal_iff.mpr located, decode_eq_refusal_iff.mpr unlocated]

/-- Whether a name is read from the signature of a value without one does not depend on the value:
the first byte behind the type is the parenthesis that closes the cast. -/
theorem isSome_decode_undeclared (style : Style) (type : String) (value value' : Int) :
    (decode style (style.undeclared type value)).map Option.isSome =
      (decode style (style.undeclared type value')).map Option.isSome := by
  cases style with
  | bracketed =>
    have parenthesis : ∀ value, (bytes (Style.castClosing .bracketed value)).head? = some 41 := by
      intro value
      rw [bytes_castClosing, List.head?_cons]
    rw [Style.undeclared, Style.undeclared, cast_eq, cast_eq]
    apply isSome_decode_append_congr
    · exact isPlain_castClosing .bracketed value
    · exact isPlain_castClosing .bracketed value'
    · rw [parenthesis, parenthesis]
  | qualified => rw [decode_undeclared_qualified, decode_undeclared_qualified]

/-- The signature of a value without a name is refused for no other reason than that it is not
recognized, and taking its segment cuts no character. -/
theorem eq_unrecognizedSignature_of_decode_undeclared {failure : Failure}
    (failed : decode style (style.undeclared type value) = .error failure) :
    failure = .refusal .unrecognizedSignature := by
  cases style with
  | bracketed =>
    cases failure with
    | refusal refusal =>
      obtain ⟨rfl, -⟩ := locate_eq_error_iff.mp (decode_eq_refusal_iff.mp failed)
      rfl
    | abort abort =>
      obtain ⟨span, fault, located, -, -⟩ := decode_eq_abort_iff.mp failed
      obtain ⟨segment, -, read⟩ := decode_of_locate_bracketed located
      rw [read] at failed
      cases failed
  | qualified =>
    rw [decode_undeclared_qualified] at failed
    cases failed

/-- Two readings of signatures for one type come to the same: no name, a name each, or signatures
that are not recognized. -/
theorem decode_undeclared_cases (style : Style) (type : String) (value value' : Int) :
    (decode style (style.undeclared type value) = .ok none ∧
        decode style (style.undeclared type value') = .ok none) ∨
      (∃ name name', decode style (style.undeclared type value) = .ok (some name) ∧
        decode style (style.undeclared type value') = .ok (some name')) ∨
      (decode style (style.undeclared type value) = .error (.refusal .unrecognizedSignature) ∧
        decode style (style.undeclared type value') =
          .error (.refusal .unrecognizedSignature)) := by
  have alike := isSome_decode_undeclared style type value value'
  cases read : decode style (style.undeclared type value) with
  | error failure =>
    obtain rfl := eq_unrecognizedSignature_of_decode_undeclared read
    cases read' : decode style (style.undeclared type value') with
    | error failure' =>
      obtain rfl := eq_unrecognizedSignature_of_decode_undeclared read'
      exact .inr (.inr ⟨rfl, rfl⟩)
    | ok answer' =>
      rw [read, read'] at alike
      cases alike
  | ok answer =>
    cases read' : decode style (style.undeclared type value') with
    | error failure' =>
      rw [read, read'] at alike
      cases alike
    | ok answer' =>
      rw [read, read'] at alike
      have named : answer.isSome = answer'.isSome := Except.ok.inj alike
      cases answer <;> cases answer' <;> simp at named ⊢

end Signature

namespace Enumeration

/-- All values that no enumerator has are gaps, or none is. Whatever the name of the type, the
signatures of two values that fit both show no name, or both show one, or are both not recognized.
So two probes at values without an enumerator answer the same: no name, or the same abort. -/
theorem gaps_alike (style : Style) (type text text' : String) (value value' : Int)
    (rendered : render style type value = .ok text)
    (rendered' : render style type value' = .ok text') :
    ((decode style text = .ok none ∧ decode style text' = .ok none) ∨
      (∃ name name', name ≠ "" ∧ name' ≠ "" ∧ decode style text = .ok (some name) ∧
        decode style text' = .ok (some name')) ∨
      (decode style text = .error (.refusal .unrecognizedSignature) ∧
        decode style text' = .error (.refusal .unrecognizedSignature))) ∧
    ∀ enumeration : Enumeration, enumeration.name = type →
      (∀ enumerator ∈ enumeration.enumerators, enumerator.value ≠ value) →
      (∀ enumerator ∈ enumeration.enumerators, enumerator.value ≠ value') →
      enumeration.nameAt style value = enumeration.nameAt style value' ∧
        enumeration.nameAt style value ∈ [.ok none, .error .integerNamed,
          .error (.refused .unrecognizedSignature)] := by
  obtain ⟨rfl, fits⟩ := render_eq_ok_iff.mp rendered
  obtain ⟨rfl, fits'⟩ := render_eq_ok_iff.mp rendered'
  have outcomes := decode_undeclared_cases style type value value'
  constructor
  · rcases outcomes with unnamed | ⟨name, name', read, read'⟩ | unrecognized
    · exact .inl unnamed
    · exact .inr (.inl ⟨name, name', ne_empty_of_decode_eq_ok read, ne_empty_of_decode_eq_ok read',
        read, read'⟩)
    · exact .inr (.inr unrecognized)
  · rintro enumeration rfl absent absent'
    rw [nameAt_of_undeclared (find?_eq_none_iff.mpr absent) fits,
      nameAt_of_undeclared (find?_eq_none_iff.mpr absent') fits']
    rcases outcomes with ⟨read, read'⟩ | ⟨name, name', read, read'⟩ | ⟨read, read'⟩
    · rw [read, read']
      simp
    · rw [read, read']
      simp
    · rw [read, read']
      simp [Failure.toAbort]

/-- A bracket that the name leaves open takes the integer for a name at every value, and two that it
closes without opening them leave no signature that is recognized. -/
theorem gaps_alike_unbalanced :
    let enumeration (name : String) : Enumeration := ⟨name, .i8, [⟨1, "One"⟩], none, none, {}, 1024⟩
    (enumeration "E<").nameAt .bracketed (-2) = (enumeration "E<").nameAt .bracketed 300 ∧
      (enumeration "E<").nameAt .bracketed 300 = .error .integerNamed ∧
      (enumeration "E>>").nameAt .bracketed (-2) = (enumeration "E>>").nameAt .bracketed 300 ∧
      (enumeration "E>>").nameAt .bracketed 300 = .error (.refused .unrecognizedSignature) := by
  intro enumeration
  have fits : ∀ name ∈ ["E<", "E>>"], ∀ value ∈ [-2, 300],
      (Style.undeclared .bracketed name value).utf8ByteSize ≤ capacity := by decide +kernel
  have opened := gaps_alike .bracketed "E<" _ _ (-2) 300
    (render_eq_ok_iff.mpr ⟨rfl, fits "E<" (by simp) (-2) (by simp)⟩)
    (render_eq_ok_iff.mpr ⟨rfl, fits "E<" (by simp) 300 (by simp)⟩)
  have closed := gaps_alike .bracketed "E>>" _ _ (-2) 300
    (render_eq_ok_iff.mpr ⟨rfl, fits "E>>" (by simp) (-2) (by simp)⟩)
    (render_eq_ok_iff.mpr ⟨rfl, fits "E>>" (by simp) 300 (by simp)⟩)
  refine ⟨?_, ?_, ?_, ?_⟩
  · exact (opened.2 (enumeration "E<") rfl (by decide) (by decide)).1
  · decide +kernel
  · exact (closed.2 (enumeration "E>>") rfl (by decide) (by decide)).1
  · decide +kernel

end Enumeration

end EnumNames
