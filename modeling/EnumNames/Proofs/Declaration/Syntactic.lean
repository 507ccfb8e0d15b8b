import EnumNames.Declaration.Attribute
import EnumNames.Proofs.Declaration.Reading
/-!
# Faults of syntax

Some faults are found of a declaration as a whole: that it is no enumeration, or has parameters,
that a variant has fields or a marker that another one has, and that no variant has the name of an
end. All others are faults of syntax, and where tokens are read no other ones are met. A reader that
is put together from readers with this property has it too, so it is a class, and readers without a
case split of their own are instances by the way in which they are written.
-/
namespace EnumNames.Declaration

/-- Whether a fault is met where tokens are read, and not found of a declaration as a whole. -/
def Fault.isSyntactic : Fault → Bool
  | notEnumeration | parameterized | hasFields | markedTwice _ | noSuchVariant _ _ => false
  | _ => true

/-- The reader meets faults of syntax only. -/
class Reader.Syntactic {α : Type} (reader : Reader α) : Prop where
  /-- Every fault is one of syntax. -/
  isSyntactic : ∀ tokens fault, reader tokens = .error fault → fault.isSyntactic

namespace Reader

variable {α β : Type}

/-! ## Readers that look, take and refuse -/

instance (value : α) : (Pure.pure value : Reader α).Syntactic where
  isSyntactic := nofun

instance : ahead.Syntactic where
  isSyntactic := nofun

instance (count : Nat) : (skip count).Syntactic where
  isSyntactic := nofun

instance : remaining.Syntactic where
  isSyntactic := nofun

/-- A reader that only meets a fault of syntax. -/
theorem syntactic_fail {fault : Fault} (syntactic : fault.isSyntactic) :
    (fail fault : Reader α).Syntactic where
  isSyntactic := by
    intro tokens met failed
    cases failed
    exact syntactic

instance (expectation : Expectation) (atEnd : Bool) :
    (fail (.expected expectation atEnd) : Reader α).Syntactic :=
  syntactic_fail rfl

instance (text : String) : (fail (.expectedMark text) : Reader α).Syntactic :=
  syntactic_fail rfl

instance (word : String) : (fail (.keyword word) : Reader α).Syntactic :=
  syntactic_fail rfl

instance (atEnd : Bool) : (fail (.unexpected atEnd) : Reader α).Syntactic :=
  syntactic_fail rfl

instance (flaw : Flaw) : (fail (.flawed flaw) : Reader α).Syntactic :=
  syntactic_fail rfl

/-! ## Readers put together -/

section Combined

variable (reader : Reader α) (behind : α → Reader β)

/-- Two readers one after the other meet the faults of either one. -/
theorem syntactic_bind [first : reader.Syntactic] (later : ∀ value, (behind value).Syntactic) :
    (reader >>= behind).Syntactic where
  isSyntactic := by
    intro tokens fault failed
    rw [bind_apply] at failed
    cases started : reader tokens with
    | error cause =>
      rw [started] at failed
      cases failed
      exact first.isSyntactic tokens fault started
    | ok reading =>
      cases ended : behind reading.value reading.rest.val with
      | error cause =>
        simp only [started, ended] at failed
        cases failed
        exact (later reading.value).isSyntactic _ fault ended
      | ok last =>
        simp only [started, ended] at failed
        cases failed

instance [reader.Syntactic] [later : ∀ value, (behind value).Syntactic] :
    (reader >>= behind).Syntactic :=
  syntactic_bind reader behind later

instance (condition : Prop) [Decidable condition] (other : Reader α) [reader.Syntactic]
    [other.Syntactic] : (if condition then reader else other).Syntactic := by
  split
  · assumption
  · assumption

instance (delimiter : Delimiter) [inner : reader.Syntactic] :
    (within delimiter reader).Syntactic where
  isSyntactic := by
    intro tokens fault failed
    unfold within at failed
    split at failed
    · split at failed
      · next found rest _ =>
        cases started : reader (Token.inside rest) with
        | error cause =>
          rw [started] at failed
          cases failed
          exact inner.isSyntactic _ fault started
        | ok reading =>
          rw [started] at failed
          cases failed
      · cases failed
        rfl
    · cases failed
      rfl

/-- What is made of a reading is met with the faults of its reader. -/
theorem syntactic_made [inner : reader.Syntactic]
    (made : (tokens : List Token) → Reading α tokens → Reading β tokens) :
    Syntactic fun tokens => (reader tokens).map (made tokens) where
  isSyntactic := by
    intro tokens fault failed
    cases started : reader tokens with
    | error cause =>
      rw [started] at failed
      cases failed
      exact inner.isSyntactic tokens fault started
    | ok reading =>
      rw [started] at failed
      cases failed

/-- A loop meets the faults of its steps. -/
theorem syntactic_loop (step : α → Reader (α × Bool)) (known : α)
    (single : ∀ known, (step known).Syntactic) : (loop step known).Syntactic where
  isSyntactic := by
    intro tokens
    -- A loop goes on only where a step has taken a token, so the induction is on how many there are.
    induction size : tokens.length using Nat.strongRecOn generalizing tokens known with
    | ind size hypothesis =>
      subst size
      intro fault failed
      rw [loop] at failed
      split at failed
      · next met stepped =>
        cases failed
        exact (single known).isSyntactic tokens fault stepped
      · next found again rest _ _ _ =>
        split at failed
        · next shorter =>
          split at failed
          · next met looped =>
            cases failed
            exact hypothesis _ shorter.2 found rest rfl fault looped
          · cases failed
        · cases failed

instance (step : α → Reader (α × Bool)) (known : α) [single : ∀ known, (step known).Syntactic] :
    (loop step known).Syntactic :=
  syntactic_loop step known single

end Combined

/-! ## The readers of single tokens and of lists -/

instance : atEnd.Syntactic := by
  unfold atEnd
  infer_instance

instance (sign : Sign) : (Reader.next sign).Syntactic := by
  unfold Reader.next
  infer_instance

instance (signs : List Sign) : (nextOf signs).Syntactic := by
  unfold nextOf
  infer_instance

instance (expectation : Expectation) : (missing expectation : Reader α).Syntactic := by
  unfold missing
  infer_instance

instance (signs : List Sign) : (refuse signs : Reader α).Syntactic := by
  unfold refuse
  infer_instance

instance (sign : Sign) : (accept sign).Syntactic := by
  apply syntactic_bind
  intro tokens
  split <;> infer_instance

instance (sign : Sign) : (expect sign).Syntactic := by
  unfold expect
  cases sign <;> infer_instance

instance : identifier.Syntactic := by
  apply syntactic_bind
  intro tokens
  split <;> infer_instance

instance : anyGroup.Syntactic := by
  apply syntactic_bind
  intro tokens
  split <;> infer_instance

section Parts

variable (reader : Reader Unit) [reader.Syntactic]

instance : (lookPast reader).Syntactic := by
  have made := syntactic_made reader fun tokens reading =>
    (⟨reading.rest.val, .all tokens, none⟩ : Reading (List Token) tokens)
  exact ⟨fun tokens fault failed => made.isSyntactic tokens fault failed⟩

instance : (attempt reader).Syntactic where
  isSyntactic := by
    intro tokens fault failed
    unfold attempt at failed
    split at failed <;> cases failed

instance : (endsWithBrace reader).Syntactic := by
  have made := syntactic_made reader fun tokens reading =>
    (⟨(tokens.take (tokens.length - reading.rest.val.length)).getLast? = some (.closing .brace),
      reading.rest, reading.unread⟩ : Reading Bool tokens)
  exact ⟨fun tokens fault failed => made.isSyntactic tokens fault failed⟩

instance (step : Reader Bool) [step.Syntactic] : (iterate step).Syntactic := by
  unfold iterate
  infer_instance

variable (ends : Reader Bool) (separator : Sign) [ends.Syntactic]

instance : (separated ends separator reader).Syntactic := by
  unfold separated
  infer_instance

instance : (chained ends separator reader).Syntactic := by
  unfold chained
  infer_instance

instance : (listed reader).Syntactic := by
  unfold listed
  infer_instance

instance : (all reader).Syntactic := by
  unfold all
  infer_instance

end Parts

end Reader

end EnumNames.Declaration
