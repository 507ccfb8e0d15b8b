import EnumNames.Proofs.Declaration.Faults
import EnumNames.Proofs.Declaration.Grammar
import EnumNames.Proofs.Declaration.Items
import Mathlib.Data.List.Count
/-!
# The messages of a declaration

A declaration that does not expand is answered with the message of each of its faults: those of its
hints and options, those of its variants in order, and those of the ends that are given by name.
What a variant adds depends on itself and on the markers of the variants in front of it, so no fault
hides another one. That an end is marked twice is found of variants only: where attributes are read,
all faults are faults of syntax, and their messages are different ones.
-/
namespace EnumNames.Declaration

/-! ## Faults where attributes are read -/

section Attributes

variable {tokens : List Token} {fault : Fault}

/-- Of two steps with a fault, it is that of the first, or that of the second behind the first. -/
theorem eq_error_of_bind_eq_error {α β : Type} {first : Except Fault α} {next : α → Except Fault β}
    (failed : first >>= next = .error fault) :
    first = .error fault ∨ ∃ middle, first = .ok middle ∧ next middle = .error fault := by
  cases first with
  | error cause =>
    cases failed
    exact .inl rfl
  | ok middle => exact .inr ⟨middle, rfl, failed⟩

namespace Path

/-- What stands in place of a path is a fault of syntax. -/
theorem isSyntactic_missing (tokens : List Token) : (missing tokens).isSyntactic := by
  unfold missing
  split
  · rfl
  · split <;> rfl
  · rfl
  · rfl

/-- Segments that cannot be read are a fault of syntax. -/
theorem isSyntactic_of_readMore (failed : readMore tokens = .error fault) : fault.isSyntactic := by
  fun_induction readMore tokens with
  | case1 second first rest hypothesis =>
    obtain further | ⟨middle, -, ended⟩ := eq_error_of_bind_eq_error failed
    · exact hypothesis further
    · cases ended
  | case2 second rest _ =>
    cases failed
    rfl
  | case3 => cases failed

/-- A path that cannot be read is a fault of syntax. -/
theorem isSyntactic_of_read (failed : Path.read tokens = .error fault) : fault.isSyntactic := by
  unfold Path.read at failed
  split at failed
  · obtain further | ⟨middle, -, ended⟩ := eq_error_of_bind_eq_error failed
    · exact isSyntactic_of_readMore further
    · cases ended
  · obtain further | ⟨middle, -, ended⟩ := eq_error_of_bind_eq_error failed
    · exact isSyntactic_of_readMore further
    · cases ended
  · cases failed
    exact isSyntactic_missing _
  · cases failed
    exact isSyntactic_missing _

end Path

namespace Attribute

variable {Known : Type} {item : ItemReader Known}
  [readers : ∀ known path, (item known path).Syntactic] {known : Known}
  {unread : Option Delimiter} {name : String} {attributes : List Attribute}

/-- Items that cannot be read are a fault of syntax if that holds of what follows their paths. -/
theorem isSyntactic_of_readItems (failed : readItems item unread known tokens = .error fault) :
    fault.isSyntactic := by
  -- An item takes a token at least, so the induction is on how many tokens there are.
  induction size : tokens.length using Nat.strongRecOn generalizing tokens known unread with
  | ind size hypothesis =>
    subst size
    match tokens with
    | [] =>
      cases unread <;> rw [readItems] at failed <;> cases failed
      rfl
    | first :: behind =>
      cases found : Path.read (first :: behind) with
      | error cause =>
        rw [readItems, found] at failed
        cases failed
        exact Path.isSyntactic_of_read found
      | ok path =>
        cases given : item known path.1 path.2.val with
        | error cause =>
          rw [readItems_eq_error found given] at failed
          cases failed
          exact (readers known path.1).isSyntactic _ fault given
        | ok reading =>
          have read : ReadsItem item known (first :: behind) reading.value reading.rest.val
              reading.unread := ⟨path.1, path.2, found, Reader.reads_of_eq_ok given⟩
          by_cases closes : ClosesItem reading.rest.val
          · rw [readItems_of_readsItem read closes] at failed
            have shorter : reading.rest.val.tail.length < (first :: behind).length := by
              have fewer := read.length_lt
              rw [List.length_tail]
              omega
            exact hypothesis _ shorter failed rfl
          · rw [readItems] at failed
            simp only [found, given, bind, Except.bind] at failed
            split at failed
            · next ends => exact absurd (closesItem_iff.mpr (.inl ends)) closes
            · next joint later ends =>
              exact absurd (closesItem_iff.mpr (.inr ⟨joint, later, ends⟩)) closes
            · cases failed
              rfl

/-- Attributes that cannot be read are a fault of syntax if that holds of their items. -/
theorem isSyntactic_of_readAll (failed : readAll name item known attributes = .error fault) :
    fault.isSyntactic := by
  induction attributes generalizing known with
  | nil => cases failed
  | cons given later hypothesis =>
    rw [readAll_cons] at failed
    obtain failed | ⟨after, -, failed⟩ := eq_error_of_bind_eq_error failed
    · split at failed
      · obtain failed | ⟨tokens, -, failed⟩ := eq_error_of_bind_eq_error failed
        · unfold Attribute.items at failed
          split at failed <;> cases failed <;> rfl
        · exact isSyntactic_of_readItems failed
      · cases failed
    · exact hypothesis failed

end Attribute

open Reader

instance (path : Path) (representation : Representation) :
    (readHint representation path).Syntactic := by
  unfold readHint
  split
  · exact syntactic_fail rfl
  · split <;> infer_instance

instance (path : Path) (markers : Markers) : (markers.readItem path).Syntactic := by
  unfold Markers.readItem
  split
  · infer_instance
  · infer_instance
  · exact syntactic_fail rfl

instance (value : Nat) : (End.limited value).Syntactic := by
  unfold End.limited
  split
  · infer_instance
  · exact syntactic_fail rfl

instance (refuse : Reader Nat) [refuse.Syntactic] : (End.readInteger refuse).Syntactic := by
  unfold End.readInteger
  apply syntactic_bind
  intro tokens
  split <;> infer_instance

instance : End.read.Syntactic := by
  unfold End.read
  apply syntactic_bind
  intro tokens
  apply syntactic_bind
  intro annotated
  apply syntactic_bind
  intro behind
  split <;> infer_instance

instance : readSearcher.Syntactic := by
  unfold readSearcher
  apply syntactic_bind
  intro tokens
  apply syntactic_bind
  intro _
  split
  · split
    · infer_instance
    · exact syntactic_fail rfl
  · exact syntactic_fail rfl

instance : readCeiling.Syntactic := by
  unfold readCeiling
  apply syntactic_bind
  intro tokens
  split
  · split
    · infer_instance
    · exact syntactic_fail rfl
  · exact syntactic_fail rfl
  · infer_instance

instance (side : Side) (options : Options) : (options.readEnd side).Syntactic := by
  unfold Options.readEnd
  split
  · exact syntactic_fail rfl
  · infer_instance

instance (path : Path) (options : Options) : (options.readItem path).Syntactic := by
  unfold Options.readItem
  split
  · infer_instance
  · infer_instance
  · infer_instance
  · infer_instance
  · exact syntactic_fail rfl

end Attributes

/-! ## Wordings -/

/-- A flaw is not worded as an end that is marked twice. -/
theorem Flaw.message_ne (flaw : Flaw) (side : Side) :
    flaw.message ≠ (Fault.markedTwice side).message := by
  cases side <;> cases flaw with
  | unread delimiter => cases delimiter <;> decide
  | continuedConversion continuation => cases continuation <;> decide
  | misplacedConstant bracketed => cases bracketed <;> decide
  | _ => decide

namespace Fault

variable {char : Char} {front text : String} {fault : Fault} {side : Side}

/-- A text begins as its front does. -/
theorem head?_append (first : front.toList.head? = some char) (back : String) :
    (front ++ back).toList.head? = some char := by
  rw [String.toList_append, List.head?_append, first, Option.some_or]

/-- A text that begins with another character is not the message of an end that is marked twice. -/
theorem ne_message_of_head? (first : text.toList.head? = some char) (other : char ≠ 'o')
    (side : Side) : text ≠ (markedTwice side).message := by
  rintro rfl
  cases side <;> exact other (Option.some.inj first.symm)

/-- Only an end that is marked twice has its message. -/
theorem message_eq_markedTwice_iff :
    fault.message = (markedTwice side).message ↔ fault = markedTwice side := by
  refine ⟨?_, congrArg message⟩
  intro same
  cases fault with
  | markedTwice other =>
    cases side with
    | lower =>
      cases other with
      | lower => rfl
      | upper => exact absurd same (by decide)
    | upper =>
      cases other with
      | lower => exact absurd same (by decide)
      | upper => rfl
  | flawed flaw => exact absurd same (flaw.message_ne side)
  -- Where the wording depends on a text its first word is enough.
  | noSuchVariant variant type =>
    exact absurd same (ne_message_of_head?
      (head?_append (head?_append (head?_append (head?_append rfl _) _) _) _) (by decide) side)
  | noArguments name | valueForArguments name | expectedMark name | keyword name =>
    exact absurd same (ne_message_of_head? (head?_append (head?_append rfl _) _) (by decide) side)
  | expected expectation atEnd =>
    cases atEnd <;>
      exact absurd same
        (ne_message_of_head? (head?_append rfl expectation.wording) (by decide) side)
  | givenTwice other => cases side <;> cases other <;> exact absurd same (by decide)
  | unexpected atEnd => cases side <;> cases atEnd <;> exact absurd same (by decide)
  | _ => cases side <;> exact absurd same (by decide)

/-- A fault of syntax is not that an end is marked twice. -/
theorem ne_markedTwice (syntactic : fault.isSyntactic) : fault ≠ markedTwice side := by
  rintro rfl
  cases syntactic

end Fault

/-- Where only faults of syntax are met, no end is found to be marked twice. -/
theorem markedTwice_not_mem_orFault {α : Type} {default : α} {answer : Except Fault α} {side : Side}
    (syntactic : ∀ fault, answer = .error fault → fault.isSyntactic) :
    .markedTwice side ∉ (orFault default answer).2 := by
  cases answer with
  | error fault => simpa [orFault] using (Fault.ne_markedTwice (syntactic fault rfl)).symm
  | ok found => simp [orFault]

/-! ## The faults of variants -/

namespace Variant

/-- The faults of a variant behind others: its own one, or one for each end that it is marked as and
another one is marked as too. -/
def faults (earlier : List Variant) (variant : Variant) : List Fault :=
  match variant.read with
  | .error fault => [fault]
  | .ok markers =>
    ([.lower, .upper].filter fun side => markers.marks side && earlier.any (·.marks side)).map
      .markedTwice

/-- The faults of variants in order, which stand behind others. -/
def allFaults (earlier : List Variant) : List Variant → List Fault
  | [] => []
  | variant :: later => variant.faults earlier ++ allFaults (earlier ++ [variant]) later

variable {earlier variants : List Variant} {variant : Variant} {fault : Fault} {side : Side}

/-- A variant that cannot be read is not found to be marked twice. -/
theorem ne_markedTwice_of_read (failed : variant.read = .error fault) :
    fault ≠ .markedTwice side := by
  unfold read at failed
  split at failed
  · exact Fault.ne_markedTwice (Attribute.isSyntactic_of_readAll failed)
  · cases failed
    exact Fault.noConfusion

/-- A variant is found to be marked twice as an end if it is marked and another one is. -/
theorem count_faults :
    (variant.faults earlier).count (.markedTwice side) =
      if variant.marks side && earlier.any (·.marks side) then 1 else 0 := by
  unfold faults
  split
  · next fault failed =>
    rw [marks_of_error failed, List.count_singleton]
    simpa using ne_markedTwice_of_read failed
  · next markers found =>
    have injective : Function.Injective Fault.markedTwice := fun _ _ => Fault.markedTwice.inj
    rw [marks_of_ok found, List.count_map_of_injective _ _ injective]
    split_ifs with twice
    · let doubled (side : Side) := markers.marks side && earlier.any (·.marks side)
      refine (List.count_filter (p := doubled) twice).trans ?_
      cases side <;> rfl
    · exact List.count_eq_zero.mpr fun member => twice (List.mem_filter.mp member).2

/-- Every variant but the first that is marked as an end is found to be marked twice. -/
theorem count_allFaults (earlier variants : List Variant) (side : Side) :
    (allFaults earlier variants).count (.markedTwice side) =
      (earlier ++ variants).countP (·.marks side) - max 1 (earlier.countP (·.marks side)) := by
  induction variants generalizing earlier with
  | nil =>
    rw [allFaults, List.append_nil, List.count_nil]
    omega
  | cons variant later hypothesis =>
    have another : earlier.any (·.marks side) = true ↔ 0 < earlier.countP (·.marks side) := by
      rw [List.any_eq_true, List.countP_pos_iff]
    have split : (earlier ++ variant :: later).countP (·.marks side) =
        (earlier ++ [variant] ++ later).countP (·.marks side) := by
      rw [List.append_assoc, List.singleton_append]
    rw [allFaults, List.count_append, count_faults, hypothesis, split]
    simp only [List.countP_append, List.countP_singleton, Bool.and_eq_true, another]
    cases variant.marks side with
    | false => simp
    | true =>
      simp only [true_and, if_true]
      split_ifs <;> omega

/-- What a variant is at fault for is found whatever the other ones are at fault for. -/
theorem faults_infix_allFaults (earlier variants later : List Variant) (variant : Variant) :
    variant.faults (earlier ++ variants) <:+: allFaults earlier (variants ++ variant :: later) := by
  induction variants generalizing earlier with
  | nil =>
    rw [List.append_nil, List.nil_append, allFaults]
    exact (List.prefix_append _ _).isInfix
  | cons first others hypothesis =>
    have behind := hypothesis (earlier ++ [first])
    rw [List.append_assoc, List.singleton_append] at behind
    exact behind.trans (List.suffix_append _ _).isInfix

end Variant

namespace Survey

variable {survey : Survey} {earlier variants : List Variant} {variant : Variant}

/-- A survey that has found the ends that earlier variants are marked as adds the faults of a
variant. -/
theorem faults_addVariant
    (known : ∀ side, (survey.marker side).isSome = earlier.any (·.marks side)) :
    (survey.addVariant variant).faults = survey.faults ++ variant.faults earlier := by
  unfold Variant.faults
  split
  · next fault failed => rw [addVariant_of_error failed, fail]
  · next markers read =>
    rw [addVariant_of_ok read]
    simp only [repeated, known]

/-- A survey that has found the ends that earlier variants are marked as adds the faults of further
variants. -/
theorem faults_foldl_addVariant
    (known : ∀ side, (survey.marker side).isSome = earlier.any (·.marks side)) :
    (variants.foldl addVariant survey).faults =
      survey.faults ++ Variant.allFaults earlier variants := by
  induction variants generalizing survey earlier with
  | nil => rw [List.foldl_nil, Variant.allFaults, List.append_nil]
  | cons variant later hypothesis =>
    have known_behind : ∀ side, ((survey.addVariant variant).marker side).isSome =
        (earlier ++ [variant]).any (·.marks side) := by
      intro side
      rw [marker_addVariant, List.any_append, List.any_cons, List.any_nil, Bool.or_false, ← known]
      cases variant.marks side <;> simp
    rw [List.foldl_cons, hypothesis known_behind, faults_addVariant known, Variant.allFaults,
      List.append_assoc]

end Survey

/-! ## All messages -/

/-- The messages that a declaration is answered with, none if it expands. -/
def messages (declaration : Declaration) : List String :=
  match declaration.expand with
  | .ok _ => []
  | .error faults => faults.map Fault.message

/-- The faults of an enumeration without parameters: that of its hints, that of its options, those
of its variants, and those of the ends that it gives by name. Options with a fault give no end. -/
def allFaults (declaration : Declaration) : List Fault :=
  let options := orFault {} (Options.ofAttributes declaration.attributes)
  (orFault .isize (representationOf declaration.attributes)).2 ++ options.2 ++
    Variant.allFaults [] declaration.variants ++
    declaration.unknownEnd options.1.lower ++ declaration.unknownEnd options.1.upper

variable {declaration : Declaration}

/-- A survey of a declaration finds all its faults. -/
theorem faults_surveyed (declaration : Declaration) :
    declaration.surveyed.faults = declaration.allFaults := by
  have variants : declaration.found.faults = Variant.allFaults [] declaration.variants :=
    Survey.faults_foldl_addVariant fun side => by cases side <;> rfl
  rw [surveyed_eq, allFaults, ← variants]

/-- The messages of an enumeration without parameters are those of all its faults. Any other
declaration has a single one. -/
theorem messages_eq (declaration : Declaration) :
    declaration.messages =
      if declaration.kind ≠ .enumeration then [Fault.notEnumeration.message]
      else if declaration.isParameterized then [Fault.parameterized.message]
      else declaration.allFaults.map Fault.message := by
  by_cases enumeration : declaration.kind = .enumeration
  · rw [if_neg (not_not.mpr enumeration)]
    cases unparameterized : declaration.isParameterized with
    | false =>
      rw [if_neg Bool.false_ne_true, messages, expand_eq_of_enumeration enumeration unparameterized,
        faults_surveyed]
      by_cases faultless : declaration.allFaults = []
      · rw [if_pos faultless, faultless]
        rfl
      · rw [if_neg faultless]
    | true =>
      rw [if_pos rfl, messages, expand, if_neg (not_not.mpr enumeration), if_pos unparameterized]
      rfl
  · rw [if_pos enumeration, messages, expand, if_pos enumeration]
    rfl

/-- A declaration expands exactly if it has no message. -/
theorem exists_expand_iff_messages :
    (∃ expansion, declaration.expand = .ok expansion) ↔ declaration.messages = [] := by
  constructor
  · rintro ⟨expansion, expanded⟩
    rw [messages, expanded]
  · intro silent
    rw [messages_eq] at silent
    split_ifs at silent with other parameterized
    have faultless := List.map_eq_nil_iff.mp silent
    exact ⟨declaration.outline, expand_eq_ok_iff_surveyed.mpr ⟨not_not.mp other,
      eq_false_of_ne_true parameterized, (faults_surveyed declaration).trans faultless, rfl⟩⟩

section Enumeration

variable (enumeration : declaration.kind = .enumeration)
  (unparameterized : declaration.isParameterized = false)
include enumeration unparameterized

/-- The messages of an enumeration without parameters are those of all its faults. -/
theorem messages_of_enumeration :
    declaration.messages = declaration.allFaults.map Fault.message := by
  rw [messages_eq, if_neg (not_not.mpr enumeration), unparameterized, if_neg Bool.false_ne_true]

/-- An enumeration without parameters has a message for each end and each variant that is marked as
it, but the first. -/
theorem count_messages (side : Side) :
    declaration.messages.count (Fault.markedTwice side).message =
      declaration.variants.countP (·.marks side) - 1 := by
  -- The faults of the other parts are no ends that are marked twice.
  have hints : .markedTwice side ∉
      (orFault .isize (representationOf declaration.attributes)).2 :=
    markedTwice_not_mem_orFault fun _ failed => Attribute.isSyntactic_of_readAll failed
  have options : .markedTwice side ∉
      (orFault {} (Options.ofAttributes declaration.attributes)).2 :=
    markedTwice_not_mem_orFault fun _ failed => Attribute.isSyntactic_of_readAll failed
  have ends : ∀ given, .markedTwice side ∉ declaration.unknownEnd given := by
    intro given
    unfold unknownEnd
    split
    · split <;> simp
    · simp
  have variants := Variant.count_allFaults [] declaration.variants side
  rw [List.nil_append, List.countP_nil, Nat.max_eq_left (Nat.zero_le 1)] at variants
  have worded : declaration.allFaults.countP
        (fun fault => fault.message == (Fault.markedTwice side).message) =
      declaration.allFaults.count (.markedTwice side) := by
    refine List.countP_congr fun fault _ => ?_
    rw [beq_iff_eq, beq_iff_eq, Fault.message_eq_markedTwice_iff]
  rw [messages_of_enumeration enumeration unparameterized, List.count_eq_countP, List.countP_map]
  refine worded.trans ?_
  simp only [allFaults, List.count_append, List.count_eq_zero_of_not_mem hints,
    List.count_eq_zero_of_not_mem options, List.count_eq_zero_of_not_mem (ends _), variants,
    Nat.zero_add, Nat.add_zero]

/-- The messages of a variant are found whatever is wrong with the other ones. -/
theorem messages_of_variant {earlier later : List Variant} {variant : Variant}
    (parts : declaration.variants = earlier ++ variant :: later) :
    (variant.faults earlier).map Fault.message <:+: declaration.messages := by
  have found : variant.faults earlier <:+: Variant.allFaults [] declaration.variants := by
    rw [parts]
    exact Variant.faults_infix_allFaults [] earlier later variant
  have behind : Variant.allFaults [] declaration.variants <:+: declaration.allFaults := by
    rw [allFaults]
    exact (List.suffix_append _ _).isInfix.trans
      ((List.prefix_append _ _).trans (List.prefix_append _ _)).isInfix
  rw [messages_of_enumeration enumeration unparameterized]
  exact (found.trans behind).map Fault.message

end Enumeration

/-- The messages of a declaration are those of all its faults, in order and each as often as it is
met: whatever else is wrong, those of a variant are among them, and all variants but the first one
that are marked as an end have the message for it. A declaration without messages expands. One that
is no enumeration, or that has parameters, has only the message for that. -/
theorem messages_exact (declaration : Declaration) :
    (declaration.kind ≠ .enumeration → declaration.messages = [Fault.notEnumeration.message]) ∧
    (declaration.kind = .enumeration → declaration.isParameterized →
      declaration.messages = [Fault.parameterized.message]) ∧
    (declaration.kind = .enumeration → declaration.isParameterized = false →
      declaration.messages = declaration.allFaults.map Fault.message ∧
      (∀ earlier variant later, declaration.variants = earlier ++ variant :: later →
        (variant.faults earlier).map Fault.message <:+: declaration.messages) ∧
      ∀ side, declaration.messages.count (Fault.markedTwice side).message =
        declaration.variants.countP (·.marks side) - 1) ∧
    ((∃ expansion, declaration.expand = .ok expansion) ↔ declaration.messages = []) := by
  refine ⟨?_, ?_, ?_, exists_expand_iff_messages⟩
  · intro other
    rw [messages_eq, if_pos other]
  · intro enumeration parameterized
    rw [messages_eq, if_neg (not_not.mpr enumeration), if_pos parameterized]
  · intro enumeration unparameterized
    exact ⟨messages_of_enumeration enumeration unparameterized,
      fun _ _ _ parts => messages_of_variant enumeration unparameterized parts,
      count_messages enumeration unparameterized⟩

/-- A type with an option that gives an unknown variant, two variants that the table begins with,
and one with fields between them. -/
theorem messages_exact_interleaved :
    let begins : List Attribute :=
      [⟨⟨false, [⟨false, "strenum"⟩]⟩, .list [.word ⟨false, "begin"⟩]⟩]
    let declaration (kind : Kind) (generics : List Token) : Declaration :=
      { kind
        visibility := []
        name := ⟨false, "E"⟩
        generics
        attributes := [⟨⟨false, [⟨false, "strenum"⟩]⟩,
          .list [.word ⟨false, "end"⟩, .mark '=' false, .word ⟨false, "Z"⟩]⟩]
        variants := [⟨⟨false, "A"⟩, begins, true⟩, ⟨⟨false, "B"⟩, begins, false⟩,
          ⟨⟨false, "C"⟩, begins, true⟩] }
    (declaration .record []).messages = [Fault.notEnumeration.message] ∧
    (declaration .enumeration [.mark '<' false, .word ⟨false, "T"⟩]).messages =
      [Fault.parameterized.message] ∧
    (declaration .enumeration []).messages =
      [.hasFields, .markedTwice .lower, .noSuchVariant ⟨false, "Z"⟩ ⟨false, "E"⟩].map
        Fault.message ∧
    (declaration .enumeration []).messages.count (Fault.markedTwice .lower).message = 1 := by
  intro begins declaration
  have exact := messages_exact (declaration .enumeration [])
  obtain ⟨listed, -, counted⟩ := exact.2.2.1 rfl rfl
  refine ⟨(messages_exact (declaration .record [])).1 (by decide),
    (messages_exact (declaration .enumeration _)).2.1 rfl rfl, ?_, ?_⟩
  · rw [listed]
    exact congrArg (List.map Fault.message) (by decide +kernel)
  · rw [counted]
    decide +kernel

end EnumNames.Declaration
