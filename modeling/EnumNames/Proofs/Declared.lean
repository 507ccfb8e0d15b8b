import EnumNames.Proofs.Passes
import EnumNames.Proofs.Signature.Identifiers
import Mathlib.Data.List.Dedup
import Mathlib.Data.List.Sort
/-!
# Tables of declared variants

Every enumerator of a declaration has the signature of its variant. If the variants are identifiers
and the name of the type is neither too long nor bracketed, every probe answers: at a declared value
with the first variant that has it, and at any other value with no name. The table then lists the
declared values of the range in ascending order, each by its first variant, whatever the style.
-/
namespace EnumNames.Enumeration

open Text Signature Declaration

/-- An enumeration declares variants of a type, each with a value: its enumerators have the
signatures of the variants in a style. -/
structure Declares (enumeration : Enumeration) (style : Style) (type : String)
    (variants : List (Int × String)) : Prop where
  /-- The name of the enumeration is that of the type. -/
  name : enumeration.name = type
  /-- There is one enumerator for each variant. -/
  enumerators : enumeration.enumerators =
    variants.map fun variant => ⟨variant.1, style.declared type variant.2⟩

/-- What is shown of the name of a type is so short that every signature has room for it, and holds
no bracket to take for one of a signature. -/
structure PlainName (type : String) : Prop where
  /-- The last segment of the name is short enough. -/
  short : (lastSegment type).utf8ByteSize ≤ 158
  /-- No bracket is opened in it. -/
  unopened : openAngle ∉ bytes (lastSegment type)
  /-- No bracket is closed in it. -/
  unclosed : closeAngle ∉ bytes (lastSegment type)

/-- The values in a range that variants have, each of them once, in ascending order. -/
def declaredValues (variants : List (Int × String)) (range : Range) : List Int :=
  ((variants.map Prod.fst).dedup.filter (· ∈ range)).insertionSort (· ≤ ·)

/-- The first variants of the values in a range, in ascending order of value. -/
def declaredNames (variants : List (Int × String)) (range : Range) : List String :=
  (declaredValues variants range).map fun value => (variants.lookup value).getD ""

variable {enumeration : Enumeration} {style : Style} {type : String}
  {variants : List (Int × String)} {range : Range} {value : Int}

/-- Exactly the declared values in the range are listed. -/
theorem mem_declaredValues :
    value ∈ declaredValues variants range ↔ value ∈ range ∧ (variants.lookup value).isSome := by
  rw [declaredValues, List.mem_insertionSort, List.mem_filter, List.mem_dedup, decide_eq_true_eq,
    and_comm, List.lookup_isSome_iff, List.mem_map]
  refine and_congr_right fun _ => exists_congr fun variant => and_congr_right fun _ => ?_
  rw [beq_iff_eq, eq_comm]

/-- The declared values are listed in strictly ascending order. -/
theorem pairwise_declaredValues : (declaredValues variants range).Pairwise (· < ·) := by
  have ascending : (declaredValues variants range).Pairwise (· ≤ ·) :=
    List.pairwise_insertionSort (· ≤ ·) _
  have distinct : (declaredValues variants range).Nodup :=
    (List.perm_insertionSort (· ≤ ·) _).nodup_iff.mpr ((List.nodup_dedup _).filter _)
  exact ascending.imp₂ (fun _ _ le ne => lt_of_le_of_ne le ne) distinct

/-- The declared values in a range are those of its values at which a variant is found. -/
theorem declaredValues_eq_filter :
    declaredValues variants range =
      range.values.filter fun value => (variants.lookup value).isSome := by
  refine List.Pairwise.eq_of_mem_iff pairwise_declaredValues
    (range.pairwise_values.filter _) fun value => ?_
  rw [mem_declaredValues, List.mem_filter, Range.mem_values]

/-- The names of a table are the variants found at the values of the range. -/
theorem declaredNames_eq_filterMap :
    declaredNames variants range = range.values.filterMap fun value => variants.lookup value := by
  have spelled : ∀ value ∈ declaredValues variants range,
      variants.lookup value = some ((variants.lookup value).getD "") := by
    intro value member
    obtain ⟨variant, found⟩ := Option.isSome_iff_exists.mp (mem_declaredValues.mp member).2
    rw [found, Option.getD_some]
  rw [declaredNames, ← List.filterMap_eq_map_iff_forall_eq_some.mpr spelled,
    declaredValues_eq_filter, List.filterMap_filter]
  refine List.filterMap_congr fun value _ => ?_
  cases found : variants.lookup value with
  | none => rfl
  | some variant => rfl

/-- The first enumerator with a value is that of the first variant with it. -/
theorem find?_map_declared (style : Style) (type : String) (value : Int) :
    (variants.map fun variant => (⟨variant.1, style.declared type variant.2⟩ : Enumerator)).find?
        (·.value = value) =
      (variants.lookup value).map fun variant => ⟨value, style.declared type variant⟩ := by
  induction variants with
  | nil => rfl
  | cons first rest ih =>
    obtain ⟨found, variant⟩ := first
    rw [List.map_cons, List.lookup_cons]
    by_cases same : found = value
    · rw [same, List.find?_cons_of_pos (by simp), beq_self_eq_true]
      rfl
    · rw [List.find?_cons_of_neg (by simpa using same), ih, beq_eq_false_iff_ne.mpr (Ne.symm same)]

/-- Every probe at a value of 128 bits answers, with the first variant that has the value. -/
theorem Declares.nameAt_eq (declares : Declares enumeration style type variants)
    (plain : PlainName type) (identifiers : ∀ variant ∈ variants, IsIdentifier variant.2)
    (inside : value ∈ Representation.i128) :
    enumeration.nameAt style value = .ok (variants.lookup value) := by
  have search : enumeration.find? value =
      (variants.lookup value).map fun variant => ⟨value, style.declared type variant⟩ := by
    rw [find?, declares.enumerators, find?_map_declared]
  cases found : variants.lookup value with
  | none =>
    rw [found] at search
    have balanced : Balanced (bytes (lastSegment enumeration.name)) := by
      rw [declares.name]
      exact balanced_of_not_mem plain.unopened plain.unclosed
    have fits : (style.undeclared enumeration.name value).utf8ByteSize ≤ capacity := by
      have room : 158 ≤ style.room := by
        cases style <;> decide
      rw [declares.name]
      exact utf8ByteSize_undeclared_le style inside (Nat.le_trans plain.short room)
    rw [nameAt_of_find?_eq_none search fun _ => balanced, render_eq_ok_iff.mpr ⟨rfl, fits⟩]
    rfl
  | some variant =>
    rw [found] at search
    obtain ⟨front, back, whole, -⟩ := List.lookup_eq_some_iff.mp found
    have member : (value, variant) ∈ variants := by
      rw [whole]
      exact List.mem_append_right front List.mem_cons_self
    rw [nameAt_of_find?_eq_some search, (identifiers _ member).decode_declared style type]
    rfl

/-- A range between two values of 128 bits has only such values. -/
theorem mem_i128_of_mem_range (start : range.start ∈ Representation.i128)
    (stop : range.stop ∈ Representation.i128) (inside : value ∈ range) :
    value ∈ Representation.i128 :=
  ⟨Int.le_trans start.1 inside.1, Int.le_trans (Int.le_of_lt inside.2) stop.2⟩

/-- The names that the probes of a range give are the declared ones if each probe finds the first
variant with its value. -/
theorem namesIn_eq_declaredNames {probe : Int → Except Abort (Option String)}
    (answers : ∀ value ∈ range, probe value = .ok (variants.lookup value)) :
    namesIn probe range = declaredNames variants range := by
  rw [namesIn, declaredNames_eq_filterMap]
  refine List.filterMap_congr fun value member => ?_
  rw [answers value (Range.mem_values.mp member)]
  rfl

/-- The table of an enumeration whose variants are identifiers lists each declared value of the
range once, in ascending order, by the first variant that has it. Every probe of the range answers,
the count is the length of the table, and none of this depends on the style. -/
theorem declared_variants_tabulated (type : String) (variants : List (Int × String))
    (range : Range) (plain : PlainName type)
    (identifiers : ∀ variant ∈ variants, IsIdentifier variant.2)
    (start : range.start ∈ Representation.i128) (stop : range.stop ∈ Representation.i128) :
    ∀ (style : Style) (enumeration : Enumeration), Declares enumeration style type variants →
      (∀ value ∈ range, enumeration.nameAt style value = .ok (variants.lookup value)) ∧
      enumeration.count style .sequential range = .ok (declaredNames variants range).length ∧
      enumeration.table style .sequential range (declaredNames variants range).length =
        .ok (declaredNames variants range) := by
  intro style enumeration declares
  have answers : ∀ value ∈ range, enumeration.nameAt style value = .ok (variants.lookup value) := by
    intro value inside
    have representable := mem_i128_of_mem_range start stop inside
    exact declares.nameAt_eq plain identifiers representable
  have answered : Answered (enumeration.nameAt style) range :=
    fun value inside => ⟨variants.lookup value, answers value inside⟩
  have names := namesIn_eq_declaredNames answers
  refine ⟨answers, ?_, ?_⟩
  · rw [answered.count_eq, names]
  · rw [answered.table_eq, names, if_neg (Nat.lt_irrefl _), if_neg (Nat.lt_irrefl _)]

/-- Variants out of order, two of them with one value and one outside the range. -/
theorem declared_variants_tabulated_aliased :
    let variants : List (Int × String) := [(3, "Late"), (-1, "Early"), (3, "Alias"), (9, "Far")]
    let enumeration : Enumeration :=
      ⟨"a::Kind", .i8, variants.map fun variant =>
        ⟨variant.1, Style.declared .bracketed "a::Kind" variant.2⟩, none, none, {}, 1024⟩
    enumeration.count .bracketed .sequential ⟨-2, 5⟩ = .ok 2 ∧
      enumeration.table .bracketed .sequential ⟨-2, 5⟩ 2 = .ok ["Early", "Late"] := by
  intro variants enumeration
  have plain : PlainName "a::Kind" := ⟨by decide, by decide, by decide⟩
  have identifiers : ∀ variant ∈ variants, IsIdentifier variant.2 := by decide
  have names : declaredNames variants ⟨-2, 5⟩ = ["Early", "Late"] := by decide
  obtain ⟨-, counted, filled⟩ := declared_variants_tabulated "a::Kind" variants ⟨-2, 5⟩ plain
    identifiers (by decide) (by decide) .bracketed enumeration ⟨rfl, rfl⟩
  rw [names] at counted filled
  exact ⟨counted, filled⟩

end EnumNames.Enumeration
