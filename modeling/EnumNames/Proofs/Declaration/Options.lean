import EnumNames.Proofs.Declaration.Ends
/-!
# What is read as an option

An option is its name, an equality sign and a value. It sets one part of what is known and keeps the
others, and an end has to be new. So an end that no other option gives can be there from the start,
and the others are read as they are without it.
-/
namespace EnumNames.Declaration

open Reader

variable {tokens rest : List Token} {unread : Option Delimiter}

/-- What is made of a value behind an equality sign. -/
theorem reads_value_iff {α β : Type} {reader : Reader α} {made : α → β} {value : β} :
    (expect "=" >>= fun _ => reader >>= fun found => pure (made found)).Reads tokens value rest
        unread ↔
      ∃ joint behind found, tokens = .mark '=' joint :: behind ∧
        reader.Reads behind found rest unread ∧ made found = value := by
  have equality : (Sign.ofMark '=').isPunctuation := by decide
  have sign : expect "=" = expect (.ofMark '=') := rfl
  rw [sign, reads_bind_iff]
  simp only [reads_expect_ofMark_iff equality, reads_bind_pure_iff]
  constructor
  · rintro ⟨_, behind, _, later, ⟨⟨joint, rfl⟩, rfl⟩, ⟨found, read, rfl⟩, rfl⟩
    exact ⟨joint, behind, found, rfl, by rwa [Option.none_or], rfl⟩
  · rintro ⟨joint, behind, found, rfl, read, rfl⟩
    exact ⟨(), behind, none, unread, ⟨⟨joint, rfl⟩, rfl⟩, ⟨found, read, rfl⟩, Option.none_or⟩

/-! ## Searchers and ceilings -/

/-- A searcher is read from its name. -/
theorem reads_readSearcher_iff {searcher : Searcher} :
    readSearcher.Reads tokens searcher rest unread ↔
      ∃ name, tokens = .word ⟨false, name⟩ :: rest ∧ Word.isKeyword ⟨false, name⟩ = false ∧
        searcher? name = some searcher ∧ none = unread := by
  rw [readSearcher, reads_ahead_bind_iff]
  simp only [reads_bind_iff, reads_identifier_iff]
  constructor
  · rintro ⟨_, _, _, later, ⟨⟨raw, name⟩, rfl, identifier, rfl⟩, read, rfl⟩
    cases raw with
    | true => exact absurd read not_reads_fail
    | false =>
      cases known : searcher? name with
      | none =>
        simp only [known] at read
        exact absurd read not_reads_fail
      | some found =>
        simp only [known, reads_pure_iff] at read
        obtain ⟨rfl, rfl, rfl⟩ := read
        exact ⟨name, rfl, identifier, known, rfl⟩
  · rintro ⟨name, rfl, identifier, known, rfl⟩
    refine ⟨(), rest, none, none, ⟨_, rfl, identifier, rfl⟩, ?_, rfl⟩
    simp only [known]
    exact reads_pure_iff.mpr ⟨rfl, rfl, rfl⟩

/-- A ceiling is read from an integer literal in its limit. -/
theorem reads_readCeiling_iff {ceiling : Numeral} :
    readCeiling.Reads tokens ceiling rest unread ↔
      tokens = .literal (.integer ceiling.value ceiling.suffix) :: rest ∧
        ceiling.value ≤ Ceiling.greatest ∧ none = unread := by
  rw [readCeiling, reads_ahead_bind_iff]
  split
  · next number suffix behind =>
    split
    · next small =>
      rw [reads_skip_bind_iff, reads_pure_iff]
      constructor
      · rintro ⟨rfl, rfl, rfl⟩
        exact ⟨rfl, small, rfl⟩
      · rintro ⟨same, -, rfl⟩
        cases same
        exact ⟨rfl, rfl, rfl⟩
    · next large =>
      refine iff_of_false not_reads_fail ?_
      rintro ⟨same, small, -⟩
      cases same
      exact large small
  · next joint number suffix behind =>
    refine iff_of_false not_reads_fail ?_
    rintro ⟨same, -⟩
    cases same
  · next other _ =>
    refine iff_of_false not_reads_missing ?_
    rintro ⟨same, -⟩
    exact other _ _ _ same

/-- A searcher is delimited. -/
theorem delimited_readSearcher : readSearcher.Delimited := by
  intro tokens searcher rest unread read _
  obtain ⟨name, rfl, identifier, known, same⟩ := reads_readSearcher_iff.mp read
  refine ⟨[.word ⟨false, name⟩], rfl, by simp [OpensItem, Token.separates], fun other _ => ?_⟩
  exact reads_readSearcher_iff.mpr ⟨name, rfl, identifier, known, same⟩

/-- A ceiling is delimited. -/
theorem delimited_readCeiling : readCeiling.Delimited := by
  intro tokens ceiling rest unread read _
  obtain ⟨rfl, small, same⟩ := reads_readCeiling_iff.mp read
  refine ⟨[.literal (.integer ceiling.value ceiling.suffix)], rfl,
    by simp [OpensItem, Token.separates], fun other _ => ?_⟩
  exact reads_readCeiling_iff.mpr ⟨rfl, small, same⟩

namespace Options

variable {options after : Options} {side other : Side} {given : End}

/-- An end that is added is given. -/
@[simp] theorem givenEnd_withEnd : (options.withEnd side given).givenEnd side = some given := by
  cases side <;> rfl

/-- The other end stays as it is. -/
theorem givenEnd_withEnd_of_ne (different : side ≠ other) :
    (options.withEnd side given).givenEnd other = options.givenEnd other := by
  cases side <;> cases other <;> first | rfl | exact absurd rfl different

/-- The ends can be added in either order. -/
theorem withEnd_comm (different : side ≠ other) (last : End) :
    (options.withEnd side given).withEnd other last =
      (options.withEnd other last).withEnd side given := by
  cases side <;> cases other <;> first | rfl | exact absurd rfl different

/-- What the option with this path and these tokens behind the equality sign makes of what is
known. -/
inductive Sets (options : Options) (path : Path) (tokens : List Token) :
    Options → List Token → Option Delimiter → Prop where
  /-- An end that was not given before. -/
  | bound {side : Side} {given : End} {rest : List Token} {unread : Option Delimiter}
      (named : path.name? = some side.word) (new : options.givenEnd side = none)
      (read : End.read.Reads tokens given rest unread) :
      Sets options path tokens (options.withEnd side given) rest unread
  /-- A searcher. -/
  | searcher {searcher : Searcher} {rest : List Token} {unread : Option Delimiter}
      (named : path.name? = some "searcher") (read : readSearcher.Reads tokens searcher rest unread) :
      Sets options path tokens { options with searcher := some searcher } rest unread
  /-- A ceiling. -/
  | ceiling {ceiling : Numeral} {rest : List Token} {unread : Option Delimiter}
      (named : path.name? = some "max_search_size")
      (read : readCeiling.Reads tokens ceiling rest unread) :
      Sets options path tokens { options with ceiling := some ceiling } rest unread

/-- An end is read if it is new. -/
theorem reads_readEnd_iff :
    (readEnd side options).Reads tokens after rest unread ↔
      ∃ joint behind given, tokens = .mark '=' joint :: behind ∧
        options.givenEnd side = none ∧ End.read.Reads behind given rest unread ∧
          options.withEnd side given = after := by
  rw [readEnd]
  cases found : options.givenEnd side with
  | some earlier =>
    rw [Option.isSome_some, if_pos rfl]
    simp [not_reads_fail]
  | none =>
    rw [Option.isSome_none, if_neg Bool.false_ne_true]
    simp [reads_value_iff]

/-- An option with the name of an end is read as that end. -/
theorem readItem_of_named {path : Path} (named : path.name? = some side.word) :
    readItem options path = readEnd side options := by
  cases side <;> simp [readItem, named, Side.word]

/-- The fault of an end that is new is the fault of its option. -/
theorem readEnd_eq_error {joint : Bool} {fault : Fault} (new : options.givenEnd side = none)
    (failed : End.read tokens = .error fault) :
    readEnd side options (.mark '=' joint :: tokens) = .error fault := by
  have equality : (Sign.ofMark '=').isPunctuation := by decide
  have sign : (expect "=").Reads (.mark '=' joint :: tokens) () tokens none :=
    (reads_expect_ofMark_iff equality).mpr ⟨⟨joint, rfl⟩, rfl⟩
  rw [readEnd, new, Option.isSome_none, if_neg Bool.false_ne_true]
  exact bind_eq_error sign (bind_eq_error_of_eq_error failed)

/-- An option is read from an equality sign and what sets it. -/
theorem reads_readItem_iff {path : Path} :
    (readItem options path).Reads tokens after rest unread ↔
      ∃ joint behind, tokens = .mark '=' joint :: behind ∧
        options.Sets path behind after rest unread := by
  constructor
  · intro read
    rw [readItem] at read
    split at read
    · next named =>
      obtain ⟨joint, behind, given, rfl, new, ended, rfl⟩ := reads_readEnd_iff.mp read
      exact ⟨joint, behind, rfl, .bound named new ended⟩
    · next named =>
      obtain ⟨joint, behind, given, rfl, new, ended, rfl⟩ := reads_readEnd_iff.mp read
      exact ⟨joint, behind, rfl, .bound named new ended⟩
    · next named =>
      obtain ⟨joint, behind, searcher, rfl, searched, rfl⟩ := reads_value_iff.mp read
      exact ⟨joint, behind, rfl, .searcher named searched⟩
    · next named =>
      obtain ⟨joint, behind, ceiling, rfl, limited, rfl⟩ := reads_value_iff.mp read
      exact ⟨joint, behind, rfl, .ceiling named limited⟩
    · exact absurd read not_reads_fail
  · rintro ⟨joint, behind, rfl, sets⟩
    cases sets with
    | @bound side given _ _ named new read =>
      rw [readItem_of_named named, reads_readEnd_iff]
      exact ⟨joint, behind, given, rfl, new, read, rfl⟩
    | searcher named read =>
      simp only [readItem, named]
      exact reads_value_iff.mpr ⟨joint, behind, _, rfl, read, rfl⟩
    | ceiling named read =>
      simp only [readItem, named]
      exact reads_value_iff.mpr ⟨joint, behind, _, rfl, read, rfl⟩

/-- What sets an option ends in no comma, and sets it whatever follows its end. -/
theorem Sets.append {path : Path} (sets : options.Sets path tokens after rest unread)
    (closes : ClosesItem rest) :
    ∃ taken, tokens = taken ++ rest ∧ ¬OpensItem taken ∧
      ∀ other, ClosesItem other → options.Sets path (taken ++ other) after other unread := by
  cases sets with
  | bound named new read =>
    obtain ⟨taken, whole, ends, again⟩ := End.delimited_read read closes
    exact ⟨taken, whole, ends, fun other closes => .bound named new (again other closes)⟩
  | searcher named read =>
    obtain ⟨taken, whole, ends, again⟩ := delimited_readSearcher read closes
    exact ⟨taken, whole, ends, fun other closes => .searcher named (again other closes)⟩
  | ceiling named read =>
    obtain ⟨taken, whole, ends, again⟩ := delimited_readCeiling read closes
    exact ⟨taken, whole, ends, fun other closes => .ceiling named (again other closes)⟩

/-- Options are delimited. -/
theorem delimits_readItem : Attribute.Delimits readItem := by
  constructor
  · intro options path tokens after rest unread read joint
    obtain ⟨_, behind, rfl, -⟩ := reads_readItem_iff.mp read
    simp
  · intro options path tokens after rest unread read closes
    obtain ⟨joint, behind, rfl, sets⟩ := reads_readItem_iff.mp read
    obtain ⟨taken, rfl, ends, again⟩ := sets.append closes
    refine ⟨.mark '=' joint :: taken, rfl, not_opensItem_append ends [.mark '=' joint], ?_⟩
    intro other closes
    exact reads_readItem_iff.mpr ⟨joint, taken ++ other, rfl, again other closes⟩

/-! ## Ceilings that are given -/

/-- What sets an option sets it alike where an end is there already that is not given before or by
it. -/
theorem Sets.withEnd {path : Path} (sets : options.Sets path tokens after rest unread)
    (absent : after.givenEnd side = none) (given : End) :
    options.givenEnd side = none ∧
      (options.withEnd side given).Sets path tokens (after.withEnd side given) rest unread := by
  cases sets with
  | @bound other last _ _ named new read =>
    have different : side ≠ other := by
      rintro rfl
      rw [givenEnd_withEnd] at absent
      cases absent
    rw [givenEnd_withEnd_of_ne different.symm] at absent
    refine ⟨absent, ?_⟩
    rw [withEnd_comm different.symm]
    apply Sets.bound named _ read
    rw [givenEnd_withEnd_of_ne different, new]
  | searcher named read =>
    refine ⟨by cases side <;> exact absent, ?_⟩
    cases side with
    | lower => exact .searcher named read
    | upper => exact .searcher named read
  | ceiling named read =>
    refine ⟨by cases side <;> exact absent, ?_⟩
    cases side with
    | lower => exact .ceiling named read
    | upper => exact .ceiling named read

/-- An end that no option gives can be there from the start. -/
theorem commutes_withEnd (side : Side) (given : End) :
    Attribute.Commutes readItem (·.withEnd side given) (·.givenEnd side = none) := by
  intro options path tokens after rest unread read absent
  obtain ⟨joint, behind, rfl, sets⟩ := reads_readItem_iff.mp read
  obtain ⟨starts, sets⟩ := sets.withEnd absent given
  exact ⟨starts, reads_readItem_iff.mpr ⟨joint, behind, rfl, sets⟩⟩

end Options

end EnumNames.Declaration
