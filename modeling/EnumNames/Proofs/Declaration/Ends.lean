import EnumNames.Declaration.Options
import EnumNames.Proofs.Declaration.Items
/-!
# What is read as an end

Behind its annotations an end is the name of a variant, an integer literal, or a minus sign and an
integer literal, and nothing goes on with it. The limit of an integer is that of its literal: the
minus sign counts only after it.
-/
namespace EnumNames.Declaration

variable {tokens rest : List Token} {unread : Option Delimiter}

/-- A comma is no operator, and nothing goes on with an operand in front of it. -/
theorem levelHere_comma (joint : Bool) (later : List Token) :
    levelHere (.mark ',' joint :: later) = .jump := by
  have operator : operator? (.mark ',' joint :: later) = none := by
    cases joint with
    | false => rfl
    | true =>
      match later with
      | .mark _ _ :: _ => simp [operator?, levelOfPair?, level?]
      | [] => rfl
      | .word _ :: _ => rfl
      | .literal _ :: _ => rfl
      | .lifetime :: _ => rfl
      | .opening _ :: _ => rfl
      | .closing _ :: _ => rfl
  simp [levelHere, operator, assigns]

namespace ClosesItem

/-- No operand goes on where an item ends. -/
theorem continuesOperand (closes : ClosesItem rest) : continuesOperand rest = false := by
  obtain rfl | ⟨joint, later, rfl⟩ := closesItem_iff.mp closes
  · rfl
  · change (levelHere (.mark ',' joint :: later) != .jump) = false
    rw [levelHere_comma]
    rfl

/-- No name goes on where an item ends. -/
theorem continuesName (closes : ClosesItem rest) (name : Word) : continuesName name rest = false := by
  have operand := closes.continuesOperand
  obtain rfl | ⟨joint, later, rfl⟩ := closesItem_iff.mp closes
  · simp [Declaration.continuesName, continuesPath, operand]
  · simp [Declaration.continuesName, continuesPath, operand]

end ClosesItem

/-- An expression that is refused gives nothing. -/
theorem Expression.not_reads_refuse {α : Type} {start : List Token} {value : α} :
    ¬(Expression.refuse start : Reader α).Reads tokens value rest unread := by
  rintro ⟨fewer, read⟩
  unfold Expression.refuse at read
  split at read
  · cases read
  · cases read

namespace End

open Reader

/-- A literal is limited to the values of the widest representation. -/
theorem reads_limited_iff {value found : Nat} :
    (limited value).Reads tokens found rest unread ↔
      (value : Int) ∈ Representation.i128 ∧ value = found ∧ tokens = rest ∧ none = unread := by
  rw [limited]
  by_cases small : (value : Int) ∈ Representation.i128
  · rw [if_pos small, reads_pure_iff]
    exact (and_iff_right small).symm
  · rw [if_neg small]
    exact iff_of_false not_reads_fail fun ⟨fits, _⟩ => small fits

/-- An integer is read from a literal that nothing goes on with. -/
theorem reads_readInteger_iff {refuse : Reader Nat} {value : Nat}
    (refuses : ∀ {tokens value rest unread}, ¬refuse.Reads tokens value rest unread) :
    (readInteger refuse).Reads tokens value rest unread ↔
      (∃ suffix, tokens = .literal (.integer value suffix) :: rest) ∧
        continuesOperand rest = false ∧ (value : Int) ∈ Representation.i128 ∧ none = unread := by
  rw [readInteger, reads_ahead_bind_iff]
  split
  · next number suffix behind =>
    cases goes : continuesOperand behind with
    | true =>
      rw [if_pos rfl]
      refine iff_of_false refuses ?_
      rintro ⟨⟨_, same⟩, ends, -⟩
      cases same
      exact absurd (goes.symm.trans ends) (by decide)
    | false =>
      rw [if_neg Bool.false_ne_true, reads_skip_bind_iff, reads_limited_iff]
      constructor
      · rintro ⟨small, rfl, rfl, rfl⟩
        exact ⟨⟨suffix, rfl⟩, goes, small, rfl⟩
      · rintro ⟨⟨_, same⟩, -, small, rfl⟩
        cases same
        exact ⟨small, rfl, rfl, rfl⟩
  · next other =>
    refine iff_of_false refuses ?_
    rintro ⟨⟨suffix, rfl⟩, -⟩
    exact other value suffix rest rfl

/-- These tokens behind the annotations of an end give the end, up to the tokens that are left. -/
inductive Spells : List Token → End → List Token → Option Delimiter → Prop where
  /-- The name of a variant. -/
  | name {name : Word} {rest : List Token} (starts : name.startsPath)
      (ends : continuesName name rest = false) :
      Spells (.word name :: rest) (.variant name) rest none
  /-- A literal. -/
  | literal {value : Nat} {suffix : String} {rest : List Token}
      (ends : continuesOperand rest = false) (small : (value : Int) ∈ Representation.i128) :
      Spells (.literal (.integer value suffix) :: rest) (.underlying value) rest none
  /-- A minus sign and a literal, which may be annotated. -/
  | minus {value : Nat} {suffix : String} {joint annotated : Bool} {behind rest : List Token}
      {unread : Option Delimiter}
      (annotations : Expression.annotations.Reads behind annotated
        (.literal (.integer value suffix) :: rest) unread)
      (ends : continuesOperand rest = false) (small : (value : Int) ∈ Representation.i128) :
      Spells (.mark '-' joint :: behind) (.underlying (-value)) rest unread

/-- An end is read from what spells it behind its annotations. -/
theorem reads_iff {value : End} :
    End.read.Reads tokens value rest unread ↔
      ∃ annotated middle earlier later,
        Expression.annotations.Reads tokens annotated middle earlier ∧
          Spells middle value rest later ∧ earlier.or later = unread := by
  have refuses : ∀ {others : List Token} {value : Nat} {rest : List Token}
      {unread : Option Delimiter},
      ¬(Expression.refuse tokens : Reader Nat).Reads others value rest unread :=
    Expression.not_reads_refuse
  rw [End.read, reads_ahead_bind_iff, reads_bind_iff]
  simp only [reads_ahead_bind_iff]
  refine exists_congr fun annotated => exists_congr fun middle => exists_congr fun earlier =>
    exists_congr fun later => and_congr_right' (and_congr_left' ?_)
  split
  · next name behind =>
    split
    · next starts =>
      rw [Bool.and_eq_true, Bool.not_eq_true'] at starts
      rw [reads_skip_bind_iff, reads_pure_iff]
      constructor
      · rintro ⟨rfl, rfl, rfl⟩
        exact .name starts.1 starts.2
      · rintro ⟨⟩
        exact ⟨rfl, rfl, rfl⟩
    · next goes =>
      refine iff_of_false Expression.not_reads_refuse fun spells => ?_
      cases spells with
      | name starts ends => exact goes (by simp [starts, ends])
  · next joint behind =>
    rw [reads_skip_bind_iff]
    simp only [reads_bind_iff, reads_readInteger_iff refuses, reads_pure_iff]
    constructor
    · rintro ⟨annotated, _, unread, _, annotations, ⟨number, _, _, _,
        ⟨⟨suffix, rfl⟩, ends, small, rfl⟩, ⟨rfl, rfl, rfl⟩, rfl⟩, rfl⟩
      rw [Option.none_or, Option.or_none]
      exact .minus annotations ends small
    · intro spells
      cases spells with
      | minus annotations ends small =>
        exact ⟨_, _, later, none, annotations, ⟨_, rest, none, none,
          ⟨⟨_, rfl⟩, ends, small, rfl⟩, ⟨rfl, rfl, rfl⟩, rfl⟩, Option.or_none⟩
  · next no_name no_minus =>
    rw [reads_bind_pure_iff]
    simp only [reads_readInteger_iff refuses]
    constructor
    · rintro ⟨number, ⟨⟨suffix, rfl⟩, ends, small, rfl⟩, rfl⟩
      exact .literal ends small
    · intro spells
      cases spells with
      | name starts ends => exact absurd rfl (no_name _ _)
      | literal ends small => exact ⟨_, ⟨⟨_, rfl⟩, ends, small, rfl⟩, rfl⟩
      | minus annotations ends small => exact absurd rfl (no_minus _ _)

/-- An end ends in no comma, and is spelled the same whatever follows the end of its item. -/
theorem Spells.append {value : End} (spells : Spells tokens value rest unread) :
    ∃ taken, tokens = taken ++ rest ∧ ¬OpensItem taken ∧
      ∀ other, ClosesItem other → Spells (taken ++ other) value other unread := by
  cases spells with
  | @name name _ starts ends =>
    refine ⟨[.word name], rfl, by simp [OpensItem, Token.separates], fun other closes => ?_⟩
    exact .name starts (closes.continuesName name)
  | @literal number suffix _ ends small =>
    refine ⟨[.literal (.integer number suffix)], rfl, by simp [OpensItem, Token.separates], ?_⟩
    exact fun other closes => .literal closes.continuesOperand small
  | @minus number suffix joint annotated _ _ _ annotations ends small =>
    let last := [Token.literal (.integer number suffix)]
    have ends : ¬OpensItem last := by simp [last, OpensItem, Token.separates]
    have annotations : Expression.annotations.Reads _ annotated (last ++ rest) unread := annotations
    obtain ⟨front, rfl, again⟩ := Expression.local_annotations.reads_append annotations ends
    refine ⟨.mark '-' joint :: front ++ last, ?_, not_opensItem_append ends _, fun other closes => ?_⟩
    · rw [List.append_assoc]
      rfl
    · rw [List.append_assoc]
      exact .minus (again other) closes.continuesOperand small

/-- An end is delimited. -/
theorem delimited_read : End.read.Delimited := by
  intro tokens value rest unread read _
  obtain ⟨annotated, middle, earlier, later, annotations, spells, rfl⟩ := reads_iff.mp read
  obtain ⟨taken, rfl, ends, again⟩ := spells.append
  obtain ⟨front, rfl, starts⟩ := Expression.local_annotations.reads_append annotations ends
  refine ⟨front ++ taken, by rw [List.append_assoc], not_opensItem_append ends front, ?_⟩
  intro other closes
  rw [List.append_assoc, reads_iff]
  exact ⟨annotated, _, earlier, later, starts other, again other closes, rfl⟩

/-! ## Words and integers -/

/-- A word that can begin a path is read as the name of a variant. -/
theorem reads_word {name : Word} (starts : name.startsPath) (closes : ClosesItem rest) :
    End.read.Reads (.word name :: rest) (.variant name) rest none := by
  have annotations : Expression.annotations.Reads (.word name :: rest) false _ none :=
    Expression.reads_annotations_of_ne fun joint => by simp
  exact reads_iff.mpr ⟨false, _, none, none, annotations,
    .name starts (closes.continuesName name), rfl⟩

/-- The tokens of an integer: those of its magnitude, behind a minus sign if it is negative. -/
def spelling (value : Int) : List Token :=
  let magnitude := [Token.literal (.integer value.natAbs "")]
  if value < 0 then .mark '-' false :: magnitude else magnitude

/-- Where the tokens of an integer begin there are no annotations. -/
theorem reads_annotations_literal {number : Literal} :
    Expression.annotations.Reads (.literal number :: rest) false (.literal number :: rest) none :=
  Expression.reads_annotations_of_ne fun joint => by simp

/-- Where a minus sign is there are no annotations. -/
theorem reads_annotations_minus {joint : Bool} :
    Expression.annotations.Reads (.mark '-' joint :: rest) false (.mark '-' joint :: rest) none :=
  Expression.reads_annotations_of_ne fun other => by simp

/-- An integer whose magnitude is in the limit is read as it is. -/
theorem reads_spelling {value : Int} (small : (value.natAbs : Int) ∈ Representation.i128)
    (closes : ClosesItem rest) :
    End.read.Reads (spelling value ++ rest) (.underlying value) rest none := by
  have ends := closes.continuesOperand
  by_cases negative : value < 0
  · have same : value = -(value.natAbs : Int) := by omega
    rw [spelling, if_pos negative]
    have spells : Spells (.mark '-' false :: .literal (.integer value.natAbs "") :: rest)
        (.underlying (-(value.natAbs : Int))) rest none :=
      .minus reads_annotations_literal ends small
    rw [← same] at spells
    exact reads_iff.mpr ⟨false, _, none, none, reads_annotations_minus, spells, rfl⟩
  · have same : (value.natAbs : Int) = value := by omega
    rw [spelling, if_neg negative]
    have spells : Spells (.literal (.integer value.natAbs "") :: rest)
        (.underlying (value.natAbs : Int)) rest none :=
      .literal ends small
    rw [same] at spells
    exact reads_iff.mpr ⟨false, _, none, none, reads_annotations_literal, spells, rfl⟩

/-- A literal beyond the limit is a fault. -/
theorem readInteger_eq_error {refuse : Reader Nat} {value : Nat} {suffix : String}
    (ends : continuesOperand rest = false) (large : (value : Int) ∉ Representation.i128) :
    readInteger refuse (.literal (.integer value suffix) :: rest) = .error .tooLarge := by
  have failed : limited value rest = .error .tooLarge := by
    rw [limited, if_neg large]
    rfl
  rw [readInteger]
  apply bind_eq_error (reads_ahead _)
  simp only [ends, Bool.false_eq_true, if_false]
  exact bind_eq_error (reads_skip 1 _) failed

/-- An integer whose magnitude is beyond the limit is a fault. -/
theorem read_spelling_eq_error {value : Int}
    (large : (value.natAbs : Int) ∉ Representation.i128) (closes : ClosesItem rest) :
    End.read (spelling value ++ rest) = .error .tooLarge := by
  have ends := closes.continuesOperand
  have failed : ∀ refuse : Reader Nat,
      readInteger refuse (.literal (.integer value.natAbs "") :: rest) = .error .tooLarge :=
    fun refuse => readInteger_eq_error ends large
  rw [End.read]
  apply bind_eq_error (reads_ahead _)
  by_cases negative : value < 0
  · rw [spelling, if_pos negative]
    apply bind_eq_error reads_annotations_minus
    apply bind_eq_error (reads_ahead _)
    apply bind_eq_error (reads_skip 1 _)
    apply bind_eq_error reads_annotations_literal
    exact bind_eq_error_of_eq_error (failed _)
  · rw [spelling, if_neg negative]
    apply bind_eq_error reads_annotations_literal
    apply bind_eq_error (reads_ahead _)
    exact bind_eq_error_of_eq_error (failed _)

end End

end EnumNames.Declaration
