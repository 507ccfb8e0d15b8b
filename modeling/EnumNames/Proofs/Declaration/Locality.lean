import EnumNames.Declaration.Expression
import EnumNames.Proofs.Declaration.Reading
/-!
# How far readers look

A local reader looks no further than the first token that it leaves: behind the tokens it took, any
other tokens that begin alike can stand in place of those that it left, and it reads the same.
Loops and groups of local readers are local, and so are annotations, whatever they are made of,
since a group is read as a list of tokens of its own.
-/
namespace EnumNames.Declaration

namespace Token

variable {token : Token} {tokens behind : List Token} {inner : Nat}

/-- A group ends at the same token if other tokens follow it. -/
theorem closing_append (closed : fromClosing inner tokens = token :: behind) (other : List Token) :
    toClosing inner (toClosing inner tokens ++ token :: other) = toClosing inner tokens ∧
      fromClosing inner (toClosing inner tokens ++ token :: other) = token :: other := by
  induction tokens generalizing inner with
  | nil => simp [fromClosing] at closed
  | cons first rest hypothesis =>
    cases first with
    | closing delimiter =>
      cases inner with
      | zero =>
        rw [fromClosing] at closed
        cases closed
        simp [toClosing, fromClosing]
      | succ outer =>
        rw [fromClosing] at closed
        simpa [toClosing, fromClosing] using hypothesis closed
    | _ =>
      simp only [fromClosing] at closed
      simpa [toClosing, fromClosing] using hypothesis closed

/-- The inside of a group and the tokens after it are parted by its end, unless it has none: then
nothing is after it. -/
theorem group_cases (tokens : List Token) :
    (inside tokens = tokens ∧ afterClosing tokens = []) ∨
      ∃ token, tokens = inside tokens ++ token :: afterClosing tokens ∧
        ∀ other, inside (inside tokens ++ token :: other) = inside tokens ∧
          afterClosing (inside tokens ++ token :: other) = other := by
  have whole := toClosing_append_fromClosing 0 tokens
  cases closed : fromClosing 0 tokens with
  | nil =>
    rw [closed, List.append_nil] at whole
    exact .inl ⟨whole, by rw [afterClosing, closed]; rfl⟩
  | cons token behind =>
    have after : afterClosing tokens = behind := by
      rw [afterClosing, closed]
      rfl
    refine .inr ⟨token, ?_, fun other => ?_⟩
    · rw [after, inside, ← closed, whole]
    · obtain ⟨same, rest⟩ := closing_append closed other
      exact ⟨same, congrArg List.tail rest⟩

end Token

/-- What the reader reads depends on the tokens that it takes and on the first one behind them. -/
def Reader.Local {α : Type} (reader : Reader α) : Prop :=
  ∀ ⦃tokens value rest unread⦄, reader.Reads tokens value rest unread →
    ∃ taken, tokens = taken ++ rest ∧
      ∀ other, other.head? = rest.head? → reader.Reads (taken ++ other) value other unread

namespace Reader

variable {α β : Type} {reader : Reader α} {char : Char}

/-- Tokens that begin alike do so behind any others. -/
theorem head?_append_congr {taken rest other : List Token} (same : other.head? = rest.head?) :
    (taken ++ other).head? = (taken ++ rest).head? := by
  rw [List.head?_append, List.head?_append, same]

/-- A value that is given depends on nothing. -/
theorem Local.pure (value : α) : (Pure.pure value : Reader α).Local := by
  intro tokens found rest unread read
  obtain ⟨rfl, rfl, rfl⟩ := reads_pure_iff.mp read
  exact ⟨[], rfl, fun other _ => reads_pure_iff.mpr ⟨rfl, rfl, rfl⟩⟩

/-- Local readers one after the other are local. -/
theorem Local.bind {next : α → Reader β} (first : reader.Local) (second : ∀ value, (next value).Local) :
    (reader >>= next).Local := by
  intro tokens value rest unread read
  obtain ⟨found, middle, earlier, later, started, ended, rfl⟩ := reads_bind_iff.mp read
  obtain ⟨behind, rfl, ends⟩ := second found ended
  obtain ⟨taken, rfl, starts⟩ := first started
  refine ⟨taken ++ behind, by rw [List.append_assoc], fun other same => ?_⟩
  rw [List.append_assoc, reads_bind_iff]
  exact ⟨found, behind ++ other, earlier, later, starts _ (head?_append_congr same),
    ends other same, rfl⟩

/-- Whether a character is next depends on the first token. -/
theorem Local.next (punctuation : (Sign.ofMark char).isPunctuation) :
    (Reader.next (.ofMark char)).Local := by
  intro tokens found rest unread read
  obtain ⟨rfl, rfl, rfl⟩ := reads_next_iff.mp read
  refine ⟨[], rfl, fun other same => reads_next_iff.mpr ⟨?_, rfl, rfl⟩⟩
  exact Sign.begins_ofMark_congr punctuation same

/-- Whether a character is accepted depends on the first token. -/
theorem Local.accept (punctuation : (Sign.ofMark char).isPunctuation) :
    (Reader.accept (.ofMark char)).Local := by
  intro tokens found rest unread read
  obtain ⟨⟨rfl, joint, rfl⟩ | ⟨rfl, rfl, absent⟩, rfl⟩ :=
    (reads_accept_ofMark_iff punctuation).mp read
  · refine ⟨[.mark char joint], rfl, fun other _ => ?_⟩
    exact (reads_accept_ofMark_iff punctuation).mpr ⟨.inl ⟨rfl, joint, rfl⟩, rfl⟩
  · refine ⟨[], rfl, fun other same => ?_⟩
    exact (reads_accept_ofMark_iff punctuation).mpr ⟨.inr ⟨rfl, rfl, same ▸ absent⟩, rfl⟩

/-- What stands in a group is read between its delimiters alone. -/
theorem reads_within_iff {delimiter : Delimiter} {inner : Reader α} {tokens rest : List Token}
    {value : α} {unread : Option Delimiter} :
    (within delimiter inner).Reads tokens value rest unread ↔
      ∃ behind left earlier, tokens = .opening delimiter :: behind ∧
        inner.Reads (Token.inside behind) value left earlier ∧
        Token.afterClosing behind = rest ∧
        earlier.or (if left.isEmpty then none else some delimiter) = unread := by
  constructor
  · rintro ⟨fewer, read⟩
    unfold within at read
    split at read
    · next found behind =>
      split at read
      · next same =>
        subst same
        cases started : inner (Token.inside behind) with
        | error fault =>
          rw [started] at read
          cases read
        | ok reading =>
          rw [started] at read
          cases read
          exact ⟨behind, _, _, rfl, reads_of_eq_ok started, rfl, rfl⟩
      · cases read
    · cases read
  · rintro ⟨behind, left, earlier, rfl, ⟨fewer, read⟩, rfl, rfl⟩
    refine ⟨Nat.le_succ_of_le (Token.length_afterClosing_le behind), ?_⟩
    unfold within
    simp only [if_true, read]
    rfl

/-- A group is local, whatever is read in it. -/
theorem Local.within (delimiter : Delimiter) (inner : Reader α) :
    (Reader.within delimiter inner).Local := by
  intro tokens value rest unread read
  obtain ⟨behind, left, earlier, rfl, found, rfl, rfl⟩ := reads_within_iff.mp read
  rcases Token.group_cases behind with ⟨all, after⟩ | ⟨token, whole, same⟩
  · -- The group goes on to the end, and only the end can stand in place of the end.
    refine ⟨.opening delimiter :: behind, by rw [after, List.append_nil], fun other ends => ?_⟩
    rw [after, List.head?_nil, List.head?_eq_none_iff] at ends
    rw [ends, List.append_nil, ← after]
    exact read
  · refine ⟨.opening delimiter :: (Token.inside behind ++ [token]), ?_, fun other _ => ?_⟩
    · rw [List.cons_append, List.append_assoc, List.singleton_append, ← whole]
    · rw [List.cons_append, List.append_assoc, List.singleton_append]
      obtain ⟨inside, after⟩ := same other
      refine reads_within_iff.mpr ⟨_, left, earlier, rfl, ?_, after, rfl⟩
      rw [inside]
      exact found

/-- A repeated local step is local. -/
theorem Local.iterate {step : Reader Bool} (single : step.Local) : (Reader.iterate step).Local := by
  intro tokens
  induction size : tokens.length using Nat.strongRecOn generalizing tokens with
  | ind size hypothesis =>
    subst size
    rintro ⟨⟩ rest unread read
    obtain ⟨again, middle, earlier, stepped, behind⟩ := reads_iterate_iff.mp read
    obtain ⟨taken, rfl, steps⟩ := single stepped
    -- Whether a token was taken does not depend on the tokens that were left.
    have shorter : ∀ left : List Token, left.length < (taken ++ left).length ↔ taken ≠ [] := by
      intro left
      rw [List.length_append, ne_eq, ← List.length_eq_zero_iff]
      omega
    by_cases goes : again = true ∧ taken ≠ []
    · rw [if_pos (by rwa [shorter])] at behind
      obtain ⟨later, looped, rfl⟩ := behind
      obtain ⟨further, rfl, loops⟩ := hypothesis _ ((shorter _).mpr goes.2) rfl looped
      refine ⟨taken ++ further, by rw [List.append_assoc], fun other same => ?_⟩
      rw [List.append_assoc, reads_iterate_iff]
      refine ⟨again, further ++ other, earlier, steps _ (head?_append_congr same), ?_⟩
      rw [if_pos (by rwa [shorter])]
      exact ⟨later, loops other same, rfl⟩
    · rw [if_neg (by rwa [shorter])] at behind
      obtain ⟨rfl, rfl⟩ := behind
      refine ⟨taken, rfl, fun other same => reads_iterate_iff.mpr ?_⟩
      refine ⟨again, other, earlier, steps other same, ?_⟩
      rw [if_neg (by rwa [shorter])]
      exact ⟨rfl, rfl⟩

end Reader

namespace Grammar

/-- Annotations are groups between brackets, each behind a hash. -/
theorem annotationsOf_eq (content : Reader Unit) :
    annotationsOf content = (Reader.next (.ofMark '#') >>= fun annotated =>
      Reader.iterate (Reader.accept (.ofMark '#') >>= fun found =>
        if found = true then Reader.within .bracket content >>= fun _ => pure true
        else pure false) >>= fun _ => pure annotated) :=
  rfl

/-- Annotations are local, whatever stands between their brackets. -/
theorem local_annotationsOf (content : Reader Unit) : (annotationsOf content).Local := by
  have hash : (Sign.ofMark '#').isPunctuation := by decide
  have single : (Reader.accept (.ofMark '#') >>= fun found =>
      if found = true then Reader.within .bracket content >>= fun _ => pure true
      else pure false).Local := by
    apply Reader.Local.bind (.accept hash)
    intro found
    cases found with
    | true => exact .bind (.within .bracket content) fun _ => .pure true
    | false => exact .pure false
  rw [annotationsOf_eq]
  exact .bind (.next hash) fun annotated => .bind (.iterate single) fun _ => .pure annotated

/-- Where no hash is next there are no annotations. -/
theorem reads_annotationsOf_of_ne (content : Reader Unit) {tokens : List Token}
    (absent : ∀ joint, tokens.head? ≠ some (.mark '#' joint)) :
    (annotationsOf content).Reads tokens false tokens none := by
  have hash : (Sign.ofMark '#').isPunctuation := by decide
  have none_next : begins tokens (.ofMark '#') = false := by
    rw [begins, Sign.width?_ofMark_of_ne hash absent]
    rfl
  have refused : (Reader.accept (.ofMark '#')).Reads tokens false tokens none :=
    (Reader.reads_accept_ofMark_iff hash).mpr ⟨.inr ⟨rfl, rfl, absent⟩, rfl⟩
  rw [annotationsOf_eq, Reader.reads_bind_iff]
  refine ⟨false, tokens, none, none, Reader.reads_next_iff.mpr ⟨none_next, rfl, rfl⟩, ?_, rfl⟩
  rw [Reader.reads_bind_pure_iff]
  refine ⟨(), Reader.reads_iterate_iff.mpr ?_, rfl⟩
  refine ⟨false, tokens, none, ?_, ?_⟩
  · exact Reader.reads_bind_iff.mpr
      ⟨false, tokens, none, none, refused, Reader.reads_pure_iff.mpr ⟨rfl, rfl, rfl⟩, rfl⟩
  · rw [if_neg (by simp)]
    exact ⟨rfl, rfl⟩

end Grammar

namespace Expression

/-- The annotations in front of an expression are local. -/
theorem local_annotations : annotations.Local :=
  Grammar.local_annotationsOf _

/-- Where no hash is next an expression has no annotations. -/
theorem reads_annotations_of_ne {tokens : List Token}
    (absent : ∀ joint, tokens.head? ≠ some (.mark '#' joint)) :
    annotations.Reads tokens false tokens none :=
  Grammar.reads_annotationsOf_of_ne _ absent

end Expression

end EnumNames.Declaration
