import EnumNames.Proofs.Declaration.Expansion
/-!
# Which faults a declaration has

The faults of a declaration are those of its parts, one part after the other, and no part hides the
faults of another one: what a survey finds behind faults is what it finds without them. So of two
declarations that differ in their options alone, the faults differ by those of the options and of the
ends that they give.
-/
namespace EnumNames.Declaration

namespace Survey

variable {survey : Survey} {declaration : Declaration}

/-- The survey behind faults that were found before it. -/
def behind (front : List Fault) (survey : Survey) : Survey :=
  { survey with faults := front ++ survey.faults }

/-- A variant adds the same behind faults as without them. -/
theorem addVariant_behind (front : List Fault) (survey : Survey) (variant : Variant) :
    (survey.behind front).addVariant variant = (survey.addVariant variant).behind front := by
  cases found : variant.read with
  | error fault =>
    rw [addVariant_of_error found, addVariant_of_error found, behind, behind, fail, fail,
      List.append_assoc]
  | ok markers =>
    rw [addVariant_of_ok found, addVariant_of_ok found]
    simp only [behind, List.append_assoc]
    rfl

/-- The variants add the same behind faults as without them. -/
theorem foldl_addVariant_behind (front : List Fault) (survey : Survey) (variants : List Variant) :
    variants.foldl addVariant (survey.behind front) =
      (variants.foldl addVariant survey).behind front :=
  List.foldl_hom (behind front) fun survey variant => addVariant_behind front survey variant

end Survey

variable {declaration : Declaration} {expansion : Expansion} {options : Options} {fault : Fault}

/-- The fault of an end that is given by a name which no variant has. -/
def unknownEnd (declaration : Declaration) : Option End → List Fault
  | some (.variant name) =>
    if declaration.variants.any (·.name = name) then [] else [.noSuchVariant name declaration.name]
  | _ => []

/-- A check of an end adds its fault, if it has one. -/
theorem Survey.checkEnd_eq (survey : Survey) (given : Option End) :
    survey.checkEnd declaration given =
      { survey with faults := survey.faults ++ declaration.unknownEnd given } := by
  match given with
  | none => simp [checkEnd, unknownEnd]
  | some (.underlying value) => simp [checkEnd, unknownEnd]
  | some (.variant name) =>
    rw [checkEnd, unknownEnd]
    split
    · simp
    · rfl

/-- What the variants of a declaration are found to be. -/
def found (declaration : Declaration) : Survey := declaration.variants.foldl Survey.addVariant {}

/-- The survey of a declaration has the faults of its hints, of its options, of its variants, and of
the two ends, in this order, and it has found what the variants are. -/
theorem surveyed_eq (declaration : Declaration) :
    let representation := orFault .isize (representationOf declaration.attributes)
    let options := orFault {} (Options.ofAttributes declaration.attributes)
    declaration.surveyed = { declaration.found with
      faults := representation.2 ++ options.2 ++ declaration.found.faults ++
        declaration.unknownEnd options.1.lower ++ declaration.unknownEnd options.1.upper } := by
  intro representation options
  have start : ({ faults := representation.2 ++ options.2 } : Survey) =
      Survey.behind (representation.2 ++ options.2) {} := by
    rw [Survey.behind, List.append_nil]
  rw [surveyed, start, Survey.foldl_addVariant_behind, Survey.checkEnd_eq, Survey.checkEnd_eq]
  rfl

/-- An end is without fault exactly if it is not given by a name that no variant has. -/
theorem unknownEnd_variant (declaration : Declaration) (name : Word) :
    declaration.unknownEnd (some (.variant name)) =
      if ∃ variant ∈ declaration.variants, variant.name = name then []
      else [.noSuchVariant name declaration.name] := by
  simp [unknownEnd]

/-- The ends of a declaration that expands are without fault. -/
theorem unknownEnd_eq_nil_of_expand (expanded : declaration.expand = .ok expansion) (side : Side) :
    declaration.unknownEnd (expansion.options.givenEnd side) = [] := by
  have read := (describes_of_expand_eq_ok expanded).options
  obtain ⟨-, -, faultless, -⟩ := expand_eq_ok_iff_surveyed.mp expanded
  rw [surveyed_eq, orFault_of_ok read] at faultless
  simp only [List.append_eq_nil_iff] at faultless
  cases side with
  | lower => exact faultless.1.2
  | upper => exact faultless.2

/-! ## Other attributes -/

/-- The declaration with these attributes in front of it in place of its own. -/
def withAttributes (declaration : Declaration) (attributes : List Attribute) : Declaration :=
  { declaration with attributes }

@[simp] theorem attributes_withAttributes (declaration : Declaration) (attributes : List Attribute) :
    (declaration.withAttributes attributes).attributes = attributes :=
  rfl

/-- What the variants are found to be does not depend on the attributes in front. -/
@[simp] theorem found_withAttributes (declaration : Declaration) (attributes : List Attribute) :
    (declaration.withAttributes attributes).found = declaration.found :=
  rfl

section Attributes

variable {others : Declaration} {attributes : List Attribute}

/-- The faults of a declaration whose hints and variants are those of one that expands. -/
theorem faults_surveyed_of_expand (expanded : others.expand = .ok expansion)
    (hints : representationOf attributes = representationOf others.attributes) :
    let options := orFault {} (Options.ofAttributes attributes)
    (others.withAttributes attributes).surveyed = { others.found with
      faults := options.2 ++ others.unknownEnd options.1.lower ++
        others.unknownEnd options.1.upper } := by
  intro options
  obtain ⟨-, -, faultless, -⟩ := expand_eq_ok_iff_surveyed.mp expanded
  rw [surveyed_eq] at faultless
  simp only [List.append_eq_nil_iff] at faultless
  obtain ⟨⟨⟨⟨represented, -⟩, readable⟩, -⟩, -⟩ := faultless
  rw [surveyed_eq, attributes_withAttributes, found_withAttributes, readable, hints, represented,
    List.append_nil, List.nil_append]
  rfl

/-- A fault of the options is the only fault of a declaration that expands with other options. -/
theorem expand_eq_error_of_options (expanded : others.expand = .ok expansion)
    (hints : representationOf attributes = representationOf others.attributes)
    (failed : Options.ofAttributes attributes = .error fault) :
    (others.withAttributes attributes).expand = .error [fault] := by
  obtain ⟨enumeration, unparameterized, -⟩ := expand_eq_ok_iff_surveyed.mp expanded
  have enumeration : (others.withAttributes attributes).kind = .enumeration := enumeration
  have surveyed := faults_surveyed_of_expand expanded hints
  rw [failed] at surveyed
  rw [expand_eq_of_enumeration enumeration unparameterized, surveyed]
  rfl

/-- Options without fault change what a declaration expands to in the options and in the table, and
what is wrong with it then are the ends that are given by names which no variant has. -/
theorem expand_of_options (expanded : others.expand = .ok expansion)
    (hints : representationOf attributes = representationOf others.attributes)
    (read : Options.ofAttributes attributes = .ok options) :
    let unknown := others.unknownEnd options.lower ++ others.unknownEnd options.upper
    (others.withAttributes attributes).expand =
      if unknown = [] then .ok { expansion with
        options
        table := if asksForTable others.found options then some others.visibility else none }
      else .error unknown := by
  intro unknown
  obtain ⟨enumeration, unparameterized, -, rfl⟩ := expand_eq_ok_iff_surveyed.mp expanded
  have enumeration : (others.withAttributes attributes).kind = .enumeration := enumeration
  have surveyed := faults_surveyed_of_expand expanded hints
  rw [read] at surveyed
  have faults : (others.withAttributes attributes).surveyed.faults = unknown := by
    rw [surveyed]
    rfl
  rw [expand_eq_of_enumeration enumeration unparameterized, faults]
  have outlined : (others.withAttributes attributes).outline = { others.outline with
      options
      table := if asksForTable others.found options then some others.visibility else none } := by
    simp only [outline, surveyed, surveyed_eq, attributes_withAttributes, hints, read]
    rfl
  rw [outlined]

end Attributes

end EnumNames.Declaration
