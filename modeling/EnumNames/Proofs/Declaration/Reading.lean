import EnumNames.Declaration.Reader
import Mathlib.Data.List.Basic
/-!
# What readers read

A reader that meets no fault has read a value from the tokens it took, and left the others. Here
that is a relation between the tokens, the value and the tokens that are left, with one lemma for
each way in which readers are put together. A local reader looks no further than the first token
that it leaves, so behind the tokens it took, any tokens that begin alike can stand in place of
those that it left.
-/
namespace EnumNames.Declaration

namespace Reader

variable {α β : Type} {reader : Reader α} {next : α → Reader β} {tokens rest : List Token}
  {unread : Option Delimiter} {fault : Fault}

/-- The reader reads this value from the front of the tokens and leaves the rest. The first group
that it leaves before its end is this one, if there is any. -/
def Reads (reader : Reader α) (tokens : List Token) (value : α) (rest : List Token)
    (unread : Option Delimiter) : Prop :=
  ∃ fewer, reader tokens = .ok ⟨value, ⟨rest, fewer⟩, unread⟩

/-- Whatever a reader answers without a fault, it reads. -/
theorem reads_of_eq_ok {reading : Reading α tokens} (read : reader tokens = .ok reading) :
    reader.Reads tokens reading.value reading.rest.val reading.unread :=
  ⟨reading.rest.property, read⟩

/-- No tokens are added to those that are left. -/
theorem Reads.length_le {value : α} (read : reader.Reads tokens value rest unread) :
    rest.length ≤ tokens.length :=
  read.1

/-- A reader reads one thing only. -/
theorem Reads.unique {first second : α} {others : List Token} {other : Option Delimiter}
    (read : reader.Reads tokens first rest unread) (again : reader.Reads tokens second others other) :
    first = second ∧ rest = others ∧ unread = other := by
  obtain ⟨_, found⟩ := read
  obtain ⟨_, found_again⟩ := again
  cases found.symm.trans found_again
  exact ⟨rfl, rfl, rfl⟩

/-! ## Readers put together -/

/-- A part is read first, and what is behind it with what it gives. -/
theorem bind_apply :
    (reader >>= next) tokens =
      match reader tokens with
      | .error fault => .error fault
      | .ok first => (next first.value first.rest.val).map (Reading.behind first) :=
  rfl

/-- A value that is given takes no tokens. -/
theorem reads_pure_iff {given value : α} :
    (pure given : Reader α).Reads tokens value rest unread ↔
      given = value ∧ tokens = rest ∧ none = unread := by
  constructor
  · rintro ⟨fewer, read⟩
    cases read
    exact ⟨rfl, rfl, rfl⟩
  · rintro ⟨rfl, rfl, rfl⟩
    exact ⟨Nat.le_refl _, rfl⟩

/-- A fault leaves nothing to read. -/
theorem not_reads_fail {value : α} : ¬(fail fault : Reader α).Reads tokens value rest unread := by
  rintro ⟨fewer, read⟩
  cases read

/-- A part and what is read behind it are read one after the other. -/
theorem reads_bind_iff {value : β} :
    (reader >>= next).Reads tokens value rest unread ↔
      ∃ first middle earlier later, reader.Reads tokens first middle earlier ∧
        (next first).Reads middle value rest later ∧ earlier.or later = unread := by
  constructor
  · rintro ⟨fewer, read⟩
    rw [bind_apply] at read
    cases started : reader tokens with
    | error fault =>
      rw [started] at read
      cases read
    | ok first =>
      cases ended : next first.value first.rest.val with
      | error fault =>
        simp only [started, ended] at read
        cases read
      | ok second =>
        simp only [started, ended, Except.map] at read
        cases read
        exact ⟨_, _, _, _, reads_of_eq_ok started, reads_of_eq_ok ended, rfl⟩
  · rintro ⟨first, middle, earlier, later, ⟨shorter, started⟩, ⟨fewer, ended⟩, rfl⟩
    refine ⟨Nat.le_trans fewer shorter, ?_⟩
    rw [bind_apply, started]
    simp only [ended, Except.map]
    rfl

/-- A fault of a part is the fault of all that begins with it. -/
theorem bind_eq_error_of_eq_error (failed : reader tokens = .error fault) :
    (reader >>= next) tokens = .error fault := by
  rw [bind_apply, failed]

/-- A fault behind a part that is read is the fault of both. -/
theorem bind_eq_error {first : α} {middle : List Token}
    (read : reader.Reads tokens first middle unread) (failed : next first middle = .error fault) :
    (reader >>= next) tokens = .error fault := by
  obtain ⟨shorter, read⟩ := read
  rw [bind_apply, read]
  simp only [failed, Except.map]

/-- To look at the tokens ahead takes none of them. -/
theorem reads_ahead (tokens : List Token) : ahead.Reads tokens tokens tokens none :=
  ⟨Nat.le_refl _, rfl⟩

/-- What is read after a look at the tokens ahead is read from these tokens. -/
theorem reads_ahead_bind_iff {next : List Token → Reader β} {value : β} :
    (ahead >>= next).Reads tokens value rest unread ↔
      (next tokens).Reads tokens value rest unread := by
  rw [reads_bind_iff]
  constructor
  · rintro ⟨first, middle, earlier, later, looked, read, rfl⟩
    obtain ⟨rfl, rfl, rfl⟩ := looked.unique (reads_ahead tokens)
    rwa [Option.none_or]
  · intro read
    exact ⟨tokens, tokens, none, unread, reads_ahead tokens, read, Option.none_or⟩

/-- Skipped tokens are dropped. -/
theorem reads_skip (count : Nat) (tokens : List Token) :
    (skip count).Reads tokens () (tokens.drop count) none :=
  ⟨by simp, rfl⟩

/-- To skip tokens drops them. -/
theorem reads_skip_iff {count : Nat} {value : Unit} :
    (skip count).Reads tokens value rest unread ↔ tokens.drop count = rest ∧ none = unread := by
  constructor
  · rintro ⟨fewer, read⟩
    cases read
    exact ⟨rfl, rfl⟩
  · rintro ⟨rfl, rfl⟩
    exact ⟨by simp, rfl⟩

/-- What is read after tokens are skipped is read from the others. -/
theorem reads_skip_bind_iff {count : Nat} {next : Unit → Reader β} {value : β} :
    (skip count >>= next).Reads tokens value rest unread ↔
      (next ()).Reads (tokens.drop count) value rest unread := by
  rw [reads_bind_iff]
  constructor
  · rintro ⟨first, middle, earlier, later, skipped, read, rfl⟩
    obtain ⟨rfl, rfl⟩ := reads_skip_iff.mp skipped
    rwa [Option.none_or]
  · intro read
    exact ⟨(), _, none, unread, reads_skip_iff.mpr ⟨rfl, rfl⟩, read, Option.none_or⟩

/-- What is made of a value is read as the value is. -/
theorem reads_bind_pure_iff {made : α → β} {value : β} :
    (reader >>= fun found => pure (made found)).Reads tokens value rest unread ↔
      ∃ found, reader.Reads tokens found rest unread ∧ made found = value := by
  simp only [reads_bind_iff, reads_pure_iff]
  constructor
  · rintro ⟨found, middle, earlier, later, read, ⟨rfl, rfl, rfl⟩, rfl⟩
    exact ⟨found, by rwa [Option.or_none], rfl⟩
  · rintro ⟨found, read, rfl⟩
    exact ⟨found, rest, unread, none, read, ⟨rfl, rfl, rfl⟩, Option.or_none⟩

/-- A loop takes a step, and goes on behind it if the step asks for it and has taken a token. -/
theorem reads_loop_iff {step : α → Reader (α × Bool)} {known value : α} :
    (loop step known).Reads tokens value rest unread ↔
      ∃ found again middle earlier, (step known).Reads tokens (found, again) middle earlier ∧
        if again = true ∧ middle.length < tokens.length then
          ∃ later, (loop step found).Reads middle value rest later ∧ earlier.or later = unread
        else found = value ∧ middle = rest ∧ earlier = unread := by
  constructor
  · rintro ⟨fewer, read⟩
    rw [loop] at read
    split at read
    · cases read
    · next found again middle shorter earlier stepped =>
      refine ⟨found, again, middle, earlier, ⟨shorter, stepped⟩, ?_⟩
      by_cases goes : again = true ∧ middle.length < tokens.length
      · rw [if_pos goes]
        rw [dif_pos goes] at read
        split at read
        · cases read
        · next last others within later looped =>
          cases read
          exact ⟨later, ⟨within, looped⟩, rfl⟩
      · rw [if_neg goes]
        rw [dif_neg goes] at read
        cases read
        exact ⟨rfl, rfl, rfl⟩
  · rintro ⟨found, again, middle, earlier, ⟨shorter, stepped⟩, read⟩
    by_cases goes : again = true ∧ middle.length < tokens.length
    · rw [if_pos goes] at read
      obtain ⟨later, ⟨within, looped⟩, rfl⟩ := read
      refine ⟨Nat.le_trans within shorter, ?_⟩
      rw [loop, stepped]
      simp only [dif_pos goes, looped]
    · rw [if_neg goes] at read
      obtain ⟨rfl, rfl, rfl⟩ := read
      refine ⟨shorter, ?_⟩
      rw [loop, stepped]
      simp only [dif_neg goes]

/-- A round takes a step and asks for another one as the step does. -/
theorem reads_iterate_iff {step : Reader Bool} :
    (iterate step).Reads tokens () rest unread ↔
      ∃ again middle earlier, step.Reads tokens again middle earlier ∧
        if again = true ∧ middle.length < tokens.length then
          ∃ later, (iterate step).Reads middle () rest later ∧ earlier.or later = unread
        else middle = rest ∧ earlier = unread := by
  rw [iterate, reads_loop_iff]
  simp only [reads_bind_pure_iff]
  constructor
  · rintro ⟨_, again, middle, earlier, ⟨found, read, same⟩, behind⟩
    obtain rfl : found = again := congrArg Prod.snd same
    exact ⟨found, middle, earlier, read, by simpa using behind⟩
  · rintro ⟨again, middle, earlier, read, behind⟩
    exact ⟨(), again, middle, earlier, ⟨again, read, rfl⟩, by simpa using behind⟩

/-- Where something is missing nothing is read. -/
theorem not_reads_missing {expectation : Expectation} {value : α} :
    ¬(missing expectation : Reader α).Reads tokens value rest unread := by
  rw [missing, reads_bind_iff]
  rintro ⟨_, _, _, _, -, read, -⟩
  exact not_reads_fail read

/-- Where a sign is refused nothing is read. -/
theorem not_reads_refuse {signs : List Sign} {value : α} :
    ¬(refuse signs : Reader α).Reads tokens value rest unread := by
  rw [refuse, reads_ahead_bind_iff]
  exact not_reads_missing

/-! ## Single tokens -/

/-- A sign that is next is seen in the tokens ahead. -/
theorem reads_next_iff {sign : Sign} {found : Bool} :
    (Reader.next sign).Reads tokens found rest unread ↔
      begins tokens sign = found ∧ tokens = rest ∧ none = unread := by
  rw [Reader.next, reads_ahead_bind_iff, reads_pure_iff]

/-- A word that is no keyword is taken. -/
theorem reads_identifier_iff {value : Unit} :
    identifier.Reads tokens value rest unread ↔
      ∃ word : Word, tokens = .word word :: rest ∧ word.isKeyword = false ∧ none = unread := by
  rw [identifier, reads_ahead_bind_iff]
  split
  · next word tail =>
    split
    · next reserved => simp [not_reads_fail, reserved]
    · next free =>
      rw [reads_skip_iff]
      simpa [and_assoc] using fun _ _ => eq_false_of_ne_true free
  · next other =>
    simp only [not_reads_refuse, false_iff, not_exists, not_and]
    intro word same
    exact absurd same (other word rest)

end Reader

namespace Sign

variable {char : Char} {tokens : List Token}

/-- The sign of a single punctuation character. -/
def ofMark (char : Char) : Sign := .spelled (String.singleton char)

/-- The sign of a character is next where a token of it is. -/
theorem width?_ofMark_of_mark (punctuation : (ofMark char).isPunctuation) {joint : Bool}
    {rest : List Token} : (ofMark char).width? (.mark char joint :: rest) = some 1 := by
  rw [ofMark] at punctuation ⊢
  rw [width?, if_pos punctuation, String.toList_singleton]
  exact if_pos rfl

/-- The sign of a character is not next where no token of it is. -/
theorem width?_ofMark_of_ne (punctuation : (ofMark char).isPunctuation)
    (other : ∀ joint, tokens.head? ≠ some (.mark char joint)) :
    (ofMark char).width? tokens = none := by
  rw [ofMark] at punctuation ⊢
  rw [width?, if_pos punctuation, String.toList_singleton]
  match tokens with
  | [] => rfl
  | .mark first joint :: rest =>
    have different : first ≠ char := by
      rintro rfl
      exact other joint rfl
    exact if_neg different
  | .word _ :: _ => rfl
  | .literal _ :: _ => rfl
  | .lifetime :: _ => rfl
  | .opening _ :: _ => rfl
  | .closing _ :: _ => rfl

/-- Whether the sign of a character is next depends on the first token. -/
theorem begins_ofMark_congr (punctuation : (ofMark char).isPunctuation) {other : List Token}
    (same : other.head? = tokens.head?) : begins other (ofMark char) = begins tokens (ofMark char) := by
  rw [begins, begins]
  by_cases next : ∃ joint, tokens.head? = some (.mark char joint)
  · obtain ⟨joint, first⟩ := next
    obtain ⟨rest, rfl⟩ := List.head?_eq_some_iff.mp first
    obtain ⟨others, rfl⟩ := List.head?_eq_some_iff.mp (same.trans first)
    rw [width?_ofMark_of_mark punctuation, width?_ofMark_of_mark punctuation]
  · rw [not_exists] at next
    rw [width?_ofMark_of_ne punctuation next, width?_ofMark_of_ne punctuation (same ▸ next)]

end Sign

namespace Reader

variable {α β : Type} {char : Char} {tokens rest : List Token} {unread : Option Delimiter}

/-- A character is accepted if it is next, and otherwise nothing is taken. -/
theorem reads_accept_ofMark_iff (punctuation : (Sign.ofMark char).isPunctuation) {found : Bool} :
    (accept (.ofMark char)).Reads tokens found rest unread ↔
      ((found = true ∧ ∃ joint, tokens = .mark char joint :: rest) ∨
        (found = false ∧ tokens = rest ∧ ∀ joint, rest.head? ≠ some (.mark char joint))) ∧
      none = unread := by
  rw [accept, reads_ahead_bind_iff]
  by_cases next : ∃ joint, tokens.head? = some (.mark char joint)
  · obtain ⟨joint, first⟩ := next
    obtain ⟨behind, rfl⟩ := List.head?_eq_some_iff.mp first
    rw [Sign.width?_ofMark_of_mark punctuation]
    simp only [reads_skip_bind_iff, reads_pure_iff]
    constructor
    · rintro ⟨rfl, rfl, rfl⟩
      exact ⟨.inl ⟨rfl, joint, rfl⟩, rfl⟩
    · rintro ⟨⟨rfl, other, same⟩ | ⟨rfl, rfl, absent⟩, rfl⟩
      · exact ⟨rfl, (List.cons.inj same).2, rfl⟩
      · exact absurd rfl (absent joint)
  · rw [not_exists] at next
    rw [Sign.width?_ofMark_of_ne punctuation next]
    simp only [reads_pure_iff]
    constructor
    · rintro ⟨rfl, rfl, rfl⟩
      exact ⟨.inr ⟨rfl, rfl, next⟩, rfl⟩
    · rintro ⟨⟨rfl, joint, rfl⟩ | ⟨rfl, rfl, -⟩, rfl⟩
      · exact absurd rfl (next joint)
      · exact ⟨rfl, rfl, rfl⟩

/-- A character that has to be next is taken. -/
theorem reads_expect_ofMark_iff (punctuation : (Sign.ofMark char).isPunctuation) {value : Unit} :
    (expect (.ofMark char)).Reads tokens value rest unread ↔
      (∃ joint, tokens = .mark char joint :: rest) ∧ none = unread := by
  have asked : expect (.ofMark char) = accept (.ofMark char) >>= fun found =>
      if found = true then pure ()
      else if (Sign.ofMark char).isPunctuation then fail (.expectedMark (String.singleton char))
      else refuse [.ofMark char] := rfl
  rw [asked, reads_bind_iff]
  constructor
  · rintro ⟨found, middle, earlier, later, accepted, read, rfl⟩
    obtain ⟨⟨rfl, joint, rfl⟩ | ⟨rfl, rfl, absent⟩, rfl⟩ :=
      (reads_accept_ofMark_iff punctuation).mp accepted
    · obtain ⟨rfl, rfl, rfl⟩ := reads_pure_iff.mp read
      exact ⟨⟨joint, rfl⟩, rfl⟩
    · rw [if_neg Bool.false_ne_true, if_pos punctuation] at read
      exact absurd read not_reads_fail
  · rintro ⟨⟨joint, rfl⟩, rfl⟩
    have accepted : (accept (.ofMark char)).Reads (.mark char joint :: rest) true rest none :=
      (reads_accept_ofMark_iff punctuation).mpr ⟨.inl ⟨rfl, joint, rfl⟩, rfl⟩
    exact ⟨true, rest, none, none, accepted, reads_pure_iff.mpr ⟨rfl, rfl, rfl⟩, rfl⟩

end Reader

end EnumNames.Declaration
