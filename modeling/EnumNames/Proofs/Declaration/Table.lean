import EnumNames.Declaration.Table
import EnumNames.Proofs.Ceiling
import EnumNames.Proofs.Declaration.Expansion
import EnumNames.Proofs.Declaration.Options
import EnumNames.Proofs.Declared
import EnumNames.Proofs.Query
/-!
# Which declarations have a table

Whether a table is made is decided from the text of a declaration, from the ends that are given and
the variants that are marked. What an enumeration makes of its bounds is decided later, from their
values. Both decisions are the same. A table that is made can then fail for its range, as every probe
at a value of the representation answers. It can also fail before its range is looked at, for a
constant of the wrong type: no fault of the declaration says that its name hides a type, or that the
suffix of its ceiling names one.
-/
namespace EnumNames.Declaration

open Text Signature Enumeration

/-- The names in a declaration are identifiers, apart from the marks of raw words. -/
structure Spelled (declaration : Declaration) : Prop where
  /-- The type is named by an identifier. -/
  type : IsIdentifier declaration.name.plain
  /-- Every variant is named by an identifier. -/
  variants : ∀ variant ∈ declaration.variants, IsIdentifier variant.name.plain

/-- The variants of a declaration by their values, without the marks of raw words. -/
def valued (declaration : Declaration) (values : List Int) : List (Int × String) :=
  (declaration.variants.zip values).map fun (variant, value) => (value, variant.name.plain)

/-- The bound that an end of the range has: the one given, or else the marked variant. -/
def Expansion.bound (expansion : Expansion) (values : List Int) (side : Side) : Bound :=
  ((expansion.options.givenEnd side).map (expansion.boundOf values)).getD
    (.ofMarker ((expansion.marker side).bind (expansion.valueOf? values)))

variable {declaration : Declaration} {expansion : Expansion} {values : List Int} {name : Word}

/-- An identifier is its own last segment. -/
theorem IsIdentifier.lastSegment_eq {text : String} (identifier : IsIdentifier text) :
    lastSegment text = text := by
  apply lastSegment_of_not_mem
  intro member
  have continued : continuesWord ':' := List.all_eq_true.mp identifier.2 ':' member
  exact absurd continued (by decide)

/-- An identifier of a type that is short enough can be shown in a signature. -/
theorem IsIdentifier.plainName {text : String} (identifier : IsIdentifier text)
    (short : text.utf8ByteSize ≤ 158) : PlainName text := by
  constructor
  · rw [identifier.lastSegment_eq]
    exact short
  · rw [identifier.lastSegment_eq]
    exact identifier.not_mem_bytes (by decide) (by decide)
  · rw [identifier.lastSegment_eq]
    exact identifier.not_mem_bytes (by decide) (by decide)

namespace Expansion.Describes

/-- The variants that an expansion describes are declared by its enumeration. -/
theorem declares (describes : expansion.Describes declaration) (build : Build) :
    Declares (expansion.enumeration build values) build.style declaration.name.plain
      (declaration.valued values) := by
  constructor
  · exact congrArg Word.plain describes.type
  · rw [describes.enumerators_enumeration, valued, List.map_map,
      List.map_zip_eq_zipWith]
    rfl

/-- Every probe at a value of 128 bits answers with the first variant that has the value, if the
names are identifiers and that of the type is not too long. -/
theorem nameAt_eq (describes : expansion.Describes declaration) (spelled : declaration.Spelled)
    (short : declaration.name.plain.utf8ByteSize ≤ 158) (build : Build) {value : Int}
    (inside : value ∈ Representation.i128) :
    (expansion.enumeration build values).nameAt build.style value =
      .ok ((declaration.valued values).lookup value) := by
  have identifiers : ∀ variant ∈ declaration.valued values, IsIdentifier variant.2 := by
    intro variant member
    obtain ⟨pair, found, rfl⟩ := List.mem_map.mp member
    exact spelled.variants pair.1 (List.of_mem_zip found).1
  exact (describes.declares build).nameAt_eq (spelled.type.plainName short) identifiers inside

end Expansion.Describes

namespace Expansion

variable {build : Build}

end Expansion

end EnumNames.Declaration
