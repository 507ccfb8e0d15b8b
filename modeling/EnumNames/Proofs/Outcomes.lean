import EnumNames.Proofs.Bounds
import EnumNames.Proofs.Census
import EnumNames.Proofs.Query
import EnumNames.Proofs.Signature.Segments
/-!
# Outcomes of a query

A query of names ends in one of four ways: its range is refused, flags are asked for, the first
probe that aborts ends it, or it gives a table. The condition of each way excludes the others, and
the length of the table is never among the reasons, since both passes see the same names. The table
holds no more names than its range has values and declared values, or than may be probed.
-/
namespace EnumNames

open Signature

/-- A name that is insisted on is refused for an unrecognized signature only. -/
theorem Signature.eq_unrecognizedSignature_of_insist {style : Style} {signature : String}
    {refusal : Refusal} (refused : insist (decode style signature) = .error (.refused refusal)) :
    refusal = .unrecognizedSignature := by
  cases read : decode style signature with
  | ok name =>
    rw [read] at refused
    cases refused
  | error failure =>
    rw [read] at refused
    have same : failure.toAbort = .refused refusal := Except.error.inj refused
    cases failure with
    | refusal other =>
      obtain rfl : other = refusal := Abort.refused.inj same
      exact (locate_eq_error_iff.mp (decode_eq_refusal_iff.mp read)).1
    | abort cause =>
      -- Decoding aborts for a segment that cannot be taken, which no refusal is.
      obtain ⟨span, fault, -, -, rfl⟩ := decode_eq_abort_iff.mp read
      cases same

/-- A signature that is not rendered is too long. -/
theorem Signature.eq_overCapacity_of_render {style : Style} {type : String} {value : Int}
    {cause : Abort} (failed : render style type value = .error cause) : cause = .overCapacity := by
  simp only [render] at failed
  split at failed
  · cases failed
  · exact (Except.error.inj failed).symm

namespace Enumeration

variable {enumeration : Enumeration} {style : Style} {searcher : Searcher} {lower upper : Bound}
  {range : Range} {refusal : Refusal} {value : Int} {expected found : Nat}

/-- A probe aborts with no other refusal than that of a signature. -/
theorem eq_unrecognizedSignature_of_nameAt
    (refused : enumeration.nameAt style value = .error (.refused refusal)) :
    refusal = .unrecognizedSignature := by
  cases search : enumeration.find? value with
  | some enumerator =>
    rw [nameAt_of_find?_eq_some search] at refused
    exact eq_unrecognizedSignature_of_insist refused
  | none =>
    rw [nameAt, search] at refused
    cases rendered : render style enumeration.name value with
    | error cause =>
      obtain rfl := eq_overCapacity_of_render rendered
      rw [rendered] at refused
      cases refused
    | ok text =>
      rw [rendered] at refused
      cases read : insist (decode style text) with
      | error cause =>
        simp only [bind, Except.bind, read] at refused
        obtain rfl : cause = .refused refusal := Except.error.inj refused
        exact eq_unrecognizedSignature_of_insist read
      | ok name =>
        simp only [bind, Except.bind, read] at refused
        cases name <;> cases refused

/-- No range is refused for the length of a table. -/
theorem range_ne_wrongLength :
    enumeration.range lower upper ≠ .error (.wrongLength expected found) := by
  intro refused
  cases begins : lower.first? with
  | none => cases (range_of_first?_eq_none begins).symm.trans refused
  | some first =>
    cases ends : upper.last? with
    | none => cases (range_of_last?_eq_none begins ends).symm.trans refused
    | some last =>
      have lower_set : lower ≠ .unset := by
        rintro rfl
        cases begins
      have upper_set : upper ≠ .unset := by
        rintro rfl
        cases ends
      cases ofRange_of_range_eq_error lower_set upper_set refused

/-! ## Ways to end -/

/-- A way in which a query of names ends. -/
inductive Ending where
  /-- The range is refused. -/
  | refused (refusal : Refusal)
  /-- The search is for flags, which cannot be searched. -/
  | unsupported
  /-- The probe at a value aborts. -/
  | aborted (value : Int) (cause : Abort)
  /-- There is a table of the names in a range. -/
  | tabulated (range : Range)

/-- When a query ends in which way: the range is checked in front of the searcher, and the searcher
in front of the probes, of which the first to abort counts. -/
inductive EndsIn (enumeration : Enumeration) (style : Style) (searcher : Searcher)
    (lower upper : Bound) : Ending → Prop where
  /-- The range is refused, whatever the searcher. -/
  | refused {refusal : Refusal} (checked : enumeration.range lower upper = .error refusal) :
      EndsIn enumeration style searcher lower upper (.refused refusal)
  /-- The range is accepted and the search is for flags. -/
  | unsupported {range : Range} (checked : enumeration.range lower upper = .ok range)
      (flags : searcher = .bitflag) : EndsIn enumeration style searcher lower upper .unsupported
  /-- The range is accepted, and the probe at the value is the first in it to abort. -/
  | aborted {range : Range} {value : Int} {cause : Abort}
      (checked : enumeration.range lower upper = .ok range) (probed : searcher = .sequential)
      (first : FirstAbort (enumeration.nameAt style) range value cause) :
      EndsIn enumeration style searcher lower upper (.aborted value cause)
  /-- The range is accepted, and all probes in it answer. -/
  | tabulated {range : Range} (checked : enumeration.range lower upper = .ok range)
      (probed : searcher = .sequential) (answered : Answered (enumeration.nameAt style) range) :
      EndsIn enumeration style searcher lower upper (.tabulated range)

/-- What a query gives that ends in a way. -/
def Ending.answer (enumeration : Enumeration) (style : Style) :
    Ending → Except Abort (List String)
  | refused refusal => .error (.refused refusal)
  | unsupported => .error (.refused .flagsUnsupported)
  | aborted _ cause => .error cause
  | tabulated range => .ok (namesIn (enumeration.nameAt style) range)

/-- The wording with which a query ends that gives no table. -/
def Ending.message? : Ending → Option String
  | refused refusal => some refusal.message
  | unsupported => some Refusal.flagsUnsupported.message
  | aborted _ cause => some cause.message
  | tabulated _ => none

variable {ending other : Ending}

/-- Every query ends in some way. -/
theorem exists_endsIn (enumeration : Enumeration) (style : Style) (searcher : Searcher)
    (lower upper : Bound) : ∃ ending, EndsIn enumeration style searcher lower upper ending := by
  cases checked : enumeration.range lower upper with
  | error refusal => exact ⟨_, .refused checked⟩
  | ok range =>
    cases kind : searcher with
    | bitflag => exact ⟨_, .unsupported checked rfl⟩
    | sequential =>
      rcases answered_or_firstAbort (enumeration.nameAt style) range with
        answered | ⟨value, cause, first⟩
      · exact ⟨_, .tabulated checked rfl answered⟩
      · exact ⟨_, .aborted checked rfl first⟩

/-- No query ends in two ways. -/
theorem EndsIn.unique (one : EndsIn enumeration style searcher lower upper ending)
    (two : EndsIn enumeration style searcher lower upper other) : ending = other := by
  cases one with
  | refused checked =>
    cases two with
    | refused again => exact congrArg _ (Except.error.inj (checked.symm.trans again))
    | unsupported again => cases checked.symm.trans again
    | aborted again => cases checked.symm.trans again
    | tabulated again => cases checked.symm.trans again
  | unsupported checked flags =>
    cases two with
    | refused again => cases checked.symm.trans again
    | unsupported => rfl
    | aborted _ probed => cases flags.symm.trans probed
    | tabulated _ probed => cases flags.symm.trans probed
  | aborted checked probed first =>
    cases two with
    | refused again => cases checked.symm.trans again
    | unsupported _ flags => cases flags.symm.trans probed
    | aborted again _ second =>
      cases checked.symm.trans again
      obtain ⟨rfl, rfl⟩ := first.unique second
      rfl
    | tabulated again _ answered =>
      cases checked.symm.trans again
      exact absurd answered first.not_answered
  | tabulated checked probed answered =>
    cases two with
    | refused again => cases checked.symm.trans again
    | unsupported _ flags => cases flags.symm.trans probed
    | aborted again _ first =>
      cases checked.symm.trans again
      exact absurd answered first.not_answered
    | tabulated again => exact congrArg _ (Except.ok.inj (checked.symm.trans again))

/-- The way in which a query ends says what it gives. -/
theorem EndsIn.names_eq (ends : EndsIn enumeration style searcher lower upper ending) :
    enumeration.names style searcher lower upper = ending.answer enumeration style := by
  cases ends with
  | refused checked => exact names_of_range_eq_error checked
  | unsupported checked flags =>
    rw [names_of_range_eq_ok checked, flags]
    rfl
  | aborted checked probed first =>
    rw [names_of_range_eq_ok checked, probed, first.count_eq]
    rfl
  | tabulated checked probed answered =>
    rw [probed]
    exact names_of_answered checked answered

/-- The wording with which a query fails is that of its ending. -/
theorem EndsIn.message?_eq {cause : Abort}
    (ends : EndsIn enumeration style searcher lower upper ending)
    (failed : enumeration.names style searcher lower upper = .error cause) :
    ending.message? = some cause.message := by
  rw [ends.names_eq] at failed
  cases ending with
  | refused refusal =>
    cases failed
    rfl
  | unsupported =>
    cases failed
    rfl
  | aborted value first =>
    cases failed
    rfl
  | tabulated range => cases failed

/-- No query ends for the length of its table. -/
theorem names_ne_wrongLength : enumeration.names style searcher lower upper ≠
    .error (.refused (.wrongLength expected found)) := by
  intro failed
  obtain ⟨ending, ends⟩ := exists_endsIn enumeration style searcher lower upper
  rw [ends.names_eq] at failed
  cases ends with
  | refused checked =>
    cases failed
    exact range_ne_wrongLength checked
  | unsupported => cases failed
  | aborted _ _ first =>
    cases failed
    cases eq_unrecognizedSignature_of_nameAt first.aborts
  | tabulated => cases failed

/-- A table has the names of an accepted range, each of them at one of its values. -/
theorem exists_range_of_names_eq_ok {table : List String}
    (tabulated : enumeration.names style searcher lower upper = .ok table) :
    ∃ range, enumeration.range lower upper = .ok range ∧
      table = namesIn (enumeration.nameAt style) range := by
  obtain ⟨ending, ends⟩ := exists_endsIn enumeration style searcher lower upper
  rw [ends.names_eq] at tabulated
  cases ends with
  | refused => cases tabulated
  | unsupported => cases tabulated
  | aborted => cases tabulated
  | tabulated checked => exact ⟨_, checked, (Except.ok.inj tabulated).symm⟩

/-- How a query of names ends: in exactly one way, which says what it gives, and never for the
length of its table. The wording of a range that is refused, or of flags, is that of the refusal. A table holds no empty name. It is no longer than the ceiling, than its range
is wide, or than there are declared values in the range. -/
theorem query_ends_one_way (enumeration : Enumeration) (style : Style) (searcher : Searcher)
    (lower upper : Bound) :
    (∃! ending, EndsIn enumeration style searcher lower upper ending) ∧
    (∀ ending, EndsIn enumeration style searcher lower upper ending →
      enumeration.names style searcher lower upper = ending.answer enumeration style) ∧
    (∀ ending cause, EndsIn enumeration style searcher lower upper ending →
      enumeration.names style searcher lower upper = .error cause →
        ending.message? = some cause.message) ∧
    (∀ expected found, enumeration.names style searcher lower upper ≠
      .error (.refused (.wrongLength expected found))) ∧
    ∀ table, enumeration.names style searcher lower upper = .ok table →
      "" ∉ table ∧ table.length ≤ enumeration.ceiling ∧
        ∃ range, enumeration.range lower upper = .ok range ∧ table.length ≤ range.width ∧
          table.length ≤ (enumeration.valuesIn range).length := by
  refine ⟨?_, fun _ => EndsIn.names_eq, fun _ _ => EndsIn.message?_eq,
    fun _ _ => names_ne_wrongLength, ?_⟩
  · obtain ⟨ending, ends⟩ := exists_endsIn enumeration style searcher lower upper
    exact ⟨ending, ends, fun other also => also.unique ends⟩
  · intro table tabulated
    obtain ⟨range, checked, rfl⟩ := exists_range_of_names_eq_ok tabulated
    have narrow : range.width ≤ enumeration.ceiling := (range_eq_ok_iff.mp checked).2
    have width : (namesIn (enumeration.nameAt style) range).length ≤ range.width :=
      size_eq_width_of_range checked ▸ length_namesIn_le_size
    refine ⟨empty_not_mem_namesIn, Nat.le_trans width narrow, range, checked, width, ?_⟩
    exact length_namesIn_le_valuesIn

/-- A range with an alias and a gap, and one that starts at a malformed signature. -/
theorem query_ends_one_way_malformed :
    let enumeration : Enumeration :=
      ⟨"E", .i8, [⟨2, "[E::B]"⟩, ⟨0, "[E::A]"⟩, ⟨2, "[E::C]"⟩, ⟨3, "malformed"⟩], none, none, {}, 1024⟩
    let query := enumeration.names .qualified .sequential
    query (.enumerator 0) (.enumerator 2) = .ok ["A", "B"] ∧
      (∃ range, enumeration.range (.enumerator 0) (.enumerator 2) = .ok range ∧
        2 ≤ range.width ∧ 2 ≤ (enumeration.valuesIn range).length) ∧
      EndsIn enumeration .qualified .sequential (.enumerator 3) (.underlying 5)
        (.aborted 3 (.refused .unrecognizedSignature)) ∧
      query (.enumerator 3) (.underlying 5) = .error (.refused .unrecognizedSignature) := by
  intro enumeration query
  have tabulated : query (.enumerator 0) (.enumerator 2) = .ok ["A", "B"] := by decide
  have checked : enumeration.range (.enumerator 3) (.underlying 5) = .ok ⟨3, 5⟩ := by decide
  have first : FirstAbort (enumeration.nameAt .qualified) ⟨3, 5⟩ 3
      (.refused .unrecognizedSignature) :=
    ⟨by decide, by decide, answered_of_le (Int.le_refl 3)⟩
  have aborts := EndsIn.aborted checked (Eq.refl Searcher.sequential) first
  obtain ⟨-, -, -, -, bounded⟩ :=
    query_ends_one_way enumeration .qualified .sequential (.enumerator 0) (.enumerator 2)
  obtain ⟨-, gives, -⟩ :=
    query_ends_one_way enumeration .qualified .sequential (.enumerator 3) (.underlying 5)
  obtain ⟨-, -, range, accepted, width, declared⟩ := bounded _ tabulated
  exact ⟨tabulated, ⟨range, accepted, width, declared⟩, aborts, gives _ aborts⟩

end Enumeration

end EnumNames
