import EnumNames.Proofs.Signature.Undeclared
/-!
# What probes answer

A probe at a declared value decodes the signature of its first enumerator. A probe at any other
value renders a signature of its own, and unless that is too long, it answers that there is no
name.
-/
namespace EnumNames

open Text Signature

/-- A signature is rendered exactly if it fits into the room for it. -/
theorem Signature.render_eq_ok_iff {style : Style} {type text : String} {value : Int} :
    render style type value = .ok text ↔
      style.undeclared type value = text ∧
        (style.undeclared type value).utf8ByteSize ≤ capacity := by
  rw [render]
  by_cases fits : (style.undeclared type value).utf8ByteSize ≤ capacity
  · simp [fits]
  · simp [fits]

namespace Enumeration

variable {enumeration : Enumeration} {style : Style} {value : Int}

/-- A value is declared if an enumerator is found for it. -/
theorem find?_eq_none_iff : enumeration.find? value = none ↔
    ∀ enumerator ∈ enumeration.enumerators, enumerator.value ≠ value := by
  simp [find?]

/-- A probe at a declared value insists on the name in the signature of the first enumerator. -/
theorem nameAt_of_find?_eq_some {enumerator : Enumerator}
    (found : enumeration.find? value = some enumerator) :
    enumeration.nameAt style value = insist (decode style enumerator.signature) := by
  rw [nameAt, found]

/-- A probe at any other value gives no name where a signature can be rendered for the value. -/
theorem nameAt_of_find?_eq_none (absent : enumeration.find? value = none)
    (balanced : style = .bracketed → Balanced (bytes (lastSegment enumeration.name))) :
    enumeration.nameAt style value = (render style enumeration.name value).map fun _ => none := by
  rw [nameAt, absent]
  cases rendered : render style enumeration.name value with
  | error cause => rfl
  | ok text =>
    obtain ⟨rfl, -⟩ := render_eq_ok_iff.mp rendered
    simp only [bind, Except.bind, decode_undeclared balanced]
    rfl

/-- A name that a probe gives was decoded from the signature of the first enumerator. -/
theorem exists_decode_of_nameAt {name : String}
    (answers : enumeration.nameAt style value = .ok (some name)) :
    ∃ enumerator, enumeration.find? value = some enumerator ∧
      decode style enumerator.signature = .ok (some name) := by
  cases found : enumeration.find? value with
  | some enumerator =>
    rw [nameAt_of_find?_eq_some found] at answers
    refine ⟨enumerator, rfl, ?_⟩
    cases read : decode style enumerator.signature with
    | error failure =>
      rw [read] at answers
      cases answers
    | ok answer =>
      rw [read] at answers
      exact congrArg Except.ok (Except.ok.inj answers)
  | none =>
    -- A value that no enumerator has is never answered by a name.
    rw [nameAt, found] at answers
    cases rendered : render style enumeration.name value with
    | error cause =>
      rw [rendered] at answers
      cases answers
    | ok text =>
      cases read : decode style text with
      | error failure =>
        rw [rendered] at answers
        simp only [bind, Except.bind, read] at answers
        cases answers
      | ok answer =>
        rw [rendered] at answers
        simp only [bind, Except.bind, read] at answers
        cases answer <;> cases answers

/-- No probe gives the empty text as a name. -/
theorem nameAt_ne_empty (value : Int) : enumeration.nameAt style value ≠ .ok (some "") := by
  intro answers
  obtain ⟨enumerator, -, read⟩ := exists_decode_of_nameAt answers
  exact ne_empty_of_decode_eq_ok read rfl

/-- Values that no enumerator has are not taken for names, whatever the value: always in the
qualified style, and in the bracketed style for types whose last segment has balanced brackets. A
probe at such a value gives no name, and it aborts for nothing but the length of the signature. -/
theorem undeclared_value_unnamed (style : Style) (type : String)
    (balanced : style = .bracketed → Balanced (bytes (lastSegment type))) :
    (∀ value text, render style type value = .ok text → decode style text = .ok none) ∧
    ∀ (enumeration : Enumeration) (value : Int), enumeration.name = type →
      (∀ enumerator ∈ enumeration.enumerators, enumerator.value ≠ value) →
      ((style.undeclared type value).utf8ByteSize ≤ capacity →
        enumeration.nameAt style value = .ok none) ∧
      enumeration.nameAt style value ≠ .error .integerNamed ∧
      enumeration.nameAt style value ≠ .error (.refused .unrecognizedSignature) := by
  refine ⟨?_, ?_⟩
  · intro value text rendered
    obtain ⟨rfl, -⟩ := render_eq_ok_iff.mp rendered
    exact decode_undeclared balanced
  · intro enumeration value same absent
    subst same
    rw [nameAt_of_find?_eq_none (find?_eq_none_iff.mpr absent) balanced, render]
    by_cases fits : (style.undeclared enumeration.name value).utf8ByteSize ≤ capacity
    · simp [fits, Except.map]
    · simp [fits, Except.map]

/-- A last segment with brackets of its own, and the least value of all, which no enumerator
has. -/
theorem undeclared_value_unnamed_nested :
    let least := Representation.i128.least
    let enumeration : Enumeration := ⟨"a::Of<b>", .i8, [⟨1, "One"⟩], none, none, {}, 1024⟩
    (Style.bracketed = .bracketed → Balanced (bytes (lastSegment "a::Of<b>"))) ∧
      decode .bracketed (Style.undeclared .bracketed "a::Of<b>" least) = .ok none ∧
      enumeration.nameAt .bracketed least = .ok none := by
  intro least enumeration
  have balanced : Style.bracketed = .bracketed → Balanced (bytes (lastSegment "a::Of<b>")) := by
    decide
  have fits : (Style.undeclared .bracketed "a::Of<b>" least).utf8ByteSize ≤ capacity := by
    decide
  obtain ⟨unread, unnamed⟩ := undeclared_value_unnamed .bracketed "a::Of<b>" balanced
  refine ⟨balanced, unread least _ (render_eq_ok_iff.mpr ⟨rfl, fits⟩), ?_⟩
  exact (unnamed enumeration least rfl (by decide)).1 fits

end Enumeration

end EnumNames
