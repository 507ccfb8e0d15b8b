import EnumNames.Proofs.Declaration.Expansion
/-!
# Alike declarations

Whether a declaration expands, and to what, is seen from a few parts of it: what is written outside
of attributes, and what is read of the attributes where they have no fault. Declarations with the
same parts are alike, and they expand alike.
-/
namespace EnumNames.Declaration

/-- A part that is read is one without fault. -/
theorem toOption_eq_some_iff {α : Type} {answer : Except Fault α} {part : α} :
    answer.toOption = some part ↔ answer = .ok part := by
  cases answer with
  | error fault => simp [Except.toOption]
  | ok found => simp [Except.toOption]

/-- The name of a variant, and how it is marked if it can be read. -/
def Variant.facts (variant : Variant) : Word × Option Markers :=
  (variant.name, variant.read.toOption)

/-- Whether the variant with these facts is marked as an end. -/
def marked (side : Side) (facts : Word × Option Markers) : Bool := facts.2.any (·.marks side)

/-- A variant is marked as its facts say. -/
theorem Variant.marked_facts (side : Side) (variant : Variant) :
    marked side variant.facts = variant.marks side := by
  rw [marked, facts, marks]
  cases variant.read <;> rfl

/-- The declarations are the same but for faults in their attributes, and for how their attributes
say what they say. -/
structure Alike (declaration other : Declaration) : Prop where
  /-- The same kind of type. -/
  kind : declaration.kind = other.kind
  /-- The same visibility. -/
  visibility : declaration.visibility = other.visibility
  /-- The same name. -/
  name : declaration.name = other.name
  /-- The same parameters. -/
  generics : declaration.generics = other.generics
  /-- The same representation, if there is no fault. -/
  representation : (representationOf declaration.attributes).toOption =
    (representationOf other.attributes).toOption
  /-- The same options, if there is no fault. -/
  options : (Options.ofAttributes declaration.attributes).toOption =
    (Options.ofAttributes other.attributes).toOption
  /-- The same variants, if there is no fault. -/
  variants : declaration.variants.map (·.facts) = other.variants.map (·.facts)

variable {declaration other : Declaration} {expansion : Expansion}

/-- A declaration has no fault exactly if the parts that are compared have none. -/
theorem expandable_iff :
    declaration.Expandable ↔
      declaration.kind = .enumeration ∧ declaration.isParameterized = false ∧
      (∃ representation, (representationOf declaration.attributes).toOption = some representation) ∧
      (∃ options, (Options.ofAttributes declaration.attributes).toOption = some options ∧
        ∀ side name, options.givenEnd side = some (.variant name) →
          ∃ facts ∈ declaration.variants.map (·.facts), facts.1 = name) ∧
      (∀ facts ∈ declaration.variants.map (·.facts), ∃ markers, facts.2 = some markers) ∧
      ∀ side, (declaration.variants.map (·.facts)).countP (marked side) ≤ 1 := by
  have readable :
      (∀ facts ∈ declaration.variants.map (·.facts), ∃ markers, facts.2 = some markers) ↔
      ∀ variant ∈ declaration.variants,
        variant.isUnit ∧ ∃ markers, Markers.ofAttributes variant.attributes = .ok markers := by
    simp only [List.forall_mem_map, Variant.facts, toOption_eq_some_iff,
      Variant.exists_read_eq_ok_iff]
  have named : ∀ name, (∃ facts ∈ declaration.variants.map (·.facts), facts.1 = name) ↔
      ∃ variant ∈ declaration.variants, variant.name = name := by
    intro name
    simp only [List.mem_map, exists_exists_and_eq_and]
    rfl
  have count : ∀ side, (declaration.variants.map (·.facts)).countP (marked side) =
      declaration.variants.countP (·.marks side) := by
    intro side
    rw [List.countP_map]
    exact List.countP_congr fun variant _ => by rw [Function.comp_apply, Variant.marked_facts]
  simp only [toOption_eq_some_iff, readable, named, count]
  constructor
  · rintro ⟨enumeration, unparameterized, represented, configured, readable, marked⟩
    exact ⟨enumeration, unparameterized, represented, configured, readable, marked⟩
  · rintro ⟨enumeration, unparameterized, represented, configured, readable, marked⟩
    exact ⟨enumeration, unparameterized, represented, configured, readable, marked⟩

/-- An expansion describes a declaration exactly if it describes the parts that are compared. -/
theorem Expansion.describes_iff :
    expansion.Describes declaration ↔
      expansion.type = declaration.name ∧
      (representationOf declaration.attributes).toOption = some expansion.representation ∧
      (Options.ofAttributes declaration.attributes).toOption = some expansion.options ∧
      expansion.enumerators = (declaration.variants.map (·.facts)).map (·.1) ∧
      (∀ side name, expansion.marker side = some name ↔
        ∃ facts ∈ declaration.variants.map (·.facts), marked side facts ∧ facts.1 = name) ∧
      ∀ visibility, expansion.table = some visibility ↔
        ((∀ side, (expansion.options.givenEnd side).isSome ∨ (expansion.marker side).isSome) ∧
          expansion.options.searcher ≠ some .bitflag) ∧ declaration.visibility = visibility := by
  have names :
      (declaration.variants.map (·.facts)).map (·.1) = declaration.variants.map (·.name) := by
    rw [List.map_map]
    rfl
  have marks : ∀ side name,
      (∃ facts ∈ declaration.variants.map (·.facts), marked side facts ∧ facts.1 = name) ↔
        ∃ variant ∈ declaration.variants, variant.marks side ∧ variant.name = name := by
    intro side name
    simp only [List.mem_map, exists_exists_and_eq_and, Variant.marked_facts]
    rfl
  simp only [toOption_eq_some_iff, names, marks]
  constructor
  · rintro ⟨type, representation, options, enumerators, marker, table⟩
    exact ⟨type, representation, options, enumerators, marker, table⟩
  · rintro ⟨type, representation, options, enumerators, marker, table⟩
    exact ⟨type, representation, options, enumerators, marker, table⟩

/-- One expansion at most describes a declaration. -/
theorem Expansion.Describes.unique {first second : Expansion}
    (describes : first.Describes declaration) (again : second.Describes declaration) :
    first = second := by
  have type : first.type = second.type := describes.type.trans again.type.symm
  have representation : first.representation = second.representation :=
    Except.ok.inj (describes.representation.symm.trans again.representation)
  have options : first.options = second.options :=
    Except.ok.inj (describes.options.symm.trans again.options)
  have enumerators : first.enumerators = second.enumerators :=
    describes.enumerators.trans again.enumerators.symm
  have marker : ∀ side, first.marker side = second.marker side := fun side =>
    Option.ext fun name => (describes.marker side name).trans (again.marker side name).symm
  -- The table is described by the parts above, so it comes last.
  have table : first.table = second.table := by
    refine Option.ext fun visibility => ?_
    rw [describes.table, again.table]
    simp only [options, marker]
  have lower : first.lowerMarker = second.lowerMarker := marker .lower
  have upper : first.upperMarker = second.upperMarker := marker .upper
  cases first
  cases second
  rw [mk.injEq]
  exact ⟨type, representation, enumerators, lower, upper, options, table⟩

namespace Alike

/-- To be alike does not depend on the order. -/
theorem symm (alike : Alike declaration other) : Alike other declaration :=
  ⟨alike.kind.symm, alike.visibility.symm, alike.name.symm, alike.generics.symm,
    alike.representation.symm, alike.options.symm, alike.variants.symm⟩

/-- A declaration that is alike to one without fault has none. -/
theorem expandable_iff (alike : Alike declaration other) :
    declaration.Expandable ↔ other.Expandable := by
  have unparameterized : declaration.isParameterized = other.isParameterized := by
    rw [isParameterized, isParameterized, alike.generics]
  rw [Declaration.expandable_iff, Declaration.expandable_iff, alike.kind, unparameterized,
    alike.representation, alike.options, alike.variants]

/-- What describes a declaration describes one that is alike. -/
theorem describes_iff (alike : Alike declaration other) :
    expansion.Describes declaration ↔ expansion.Describes other := by
  rw [Expansion.describes_iff, Expansion.describes_iff, alike.name, alike.representation,
    alike.options, alike.variants, alike.visibility]

/-- What a declaration expands to, one that is alike expands to. -/
theorem expand_of_expand (alike : Alike declaration other)
    (expanded : declaration.expand = .ok expansion) : other.expand = .ok expansion := by
  have expandable := alike.expandable_iff.mp (exists_expand_eq_ok_iff.mp ⟨expansion, expanded⟩)
  obtain ⟨found, expanded_other⟩ := exists_expand_eq_ok_iff.mpr expandable
  have describes := alike.describes_iff.mp (describes_of_expand_eq_ok expanded)
  rw [expanded_other, (describes_of_expand_eq_ok expanded_other).unique describes]

/-- Alike declarations expand alike. -/
theorem expand_eq_ok_iff (alike : Alike declaration other) :
    declaration.expand = .ok expansion ↔ other.expand = .ok expansion :=
  ⟨alike.expand_of_expand, alike.symm.expand_of_expand⟩

end Alike

end EnumNames.Declaration
