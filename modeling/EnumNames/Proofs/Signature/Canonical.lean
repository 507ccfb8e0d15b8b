import EnumNames.Proofs.Signature.Segments
/-!
# Decoded names are canonical

A name may be decoded from any text, not only from the signature of a variant. Where it was found,
the reader of the style stopped in front of it and saw no delimiter in it. That is all it takes to
be read back from the signature of a variant with this name, whatever the type, unless the name
begins with a colon that the qualifier in front of it would take. The qualified style never gives
such a name.
-/
namespace EnumNames.Signature

open Text

variable {style : Style} {signature name : String}

/-- No name is decoded from the empty text. -/
theorem signature_ne_empty_of_decode (read : decode style signature = .ok (some name)) :
    signature ≠ "" := by
  rintro rfl
  have unnamed : decode style "" = .ok none := by cases style <;> rfl
  cases unnamed.symm.trans read

/-- In front of a name of the bracketed style, the reader of brackets has come to the greatest
offset at which a segment can start. -/
theorem isGreatest_opens_of_decode (read : decode .bracketed signature = .ok (some name)) :
    ∃ front, IsGreatest {start | SplitsAt (Opens 0) (front ++ bytes name) start} front.length := by
  obtain ⟨span, located, taken, -⟩ := decode_eq_some_iff.mp read
  have closed : closeAngle ∈ bytes signature := by
    by_contra absent
    have refused := locate_bracketed_of_not_mem (signature_ne_empty_of_decode read) absent
    cases refused.symm.trans located
  obtain ⟨front, tail, cut, last⟩ := exists_last_closeAngle closed
  obtain ⟨stop, greatest⟩ := (locate_bracketed_eq_ok_iff cut last).mp located
  obtain ⟨-, -, exact⟩ := slice_eq_ok_iff.mp taken
  have segment : bytes name = front.drop span.start := by
    rw [exact, cut, stop, List.take_left]
  refine ⟨front.take span.start, ?_⟩
  rw [segment]
  exact isGreatest_splitsAt_take_drop greatest

/-- In front of a name of the qualified style, the reader of separators has come to the greatest
offset at which a segment can start, with one more byte behind the name. -/
theorem isGreatest_separates_of_decode (read : decode .qualified signature = .ok (some name)) :
    ∃ front byte, IsGreatest {start | SplitsAt Separates (front ++ (bytes name ++ [byte])) start}
      front.length := by
  obtain ⟨span, located, taken, -⟩ := decode_eq_some_iff.mp read
  obtain ⟨front, byte, cut⟩ := exists_last_byte (signature_ne_empty_of_decode read)
  obtain ⟨stop, inside, greatest⟩ := (locate_qualified_eq_ok_iff cut).mp located
  obtain ⟨-, -, exact⟩ := slice_eq_ok_iff.mp taken
  have segment : bytes name ++ [byte] = (front ++ [byte]).drop span.start := by
    rw [exact, cut, stop, List.take_left, List.drop_append_of_le_length inside]
  refine ⟨(front ++ [byte]).take span.start, byte, ?_⟩
  rw [segment]
  exact isGreatest_splitsAt_take_drop greatest

/-- No delimiter of the style stands in a name that is decoded. -/
theorem undelimited_of_decode (read : decode style signature = .ok (some name)) :
    style.Undelimited (bytes name) := by
  cases style with
  | bracketed =>
    obtain ⟨front, greatest⟩ := isGreatest_opens_of_decode read
    obtain ⟨-, balanced, unqualified, -⟩ := isGreatest_opens_iff.mp greatest
    exact ⟨balanced, unqualified⟩
  | qualified =>
    obtain ⟨front, byte, greatest⟩ := isGreatest_separates_of_decode read
    obtain ⟨-, unqualified, unopened, -⟩ := isGreatest_separates_iff.mp greatest
    have part : bytes name <:+: bytes name ++ [byte] := (List.prefix_append _ _).isInfix
    exact ⟨fun pair => unqualified (pair.trans part), fun pair => unopened (pair.trans part)⟩

/-- A name of the qualified style has no colon in front. -/
theorem not_colon_prefix_of_decode_qualified
    (read : decode .qualified signature = .ok (some name)) : ¬[colon] <+: bytes name := by
  intro colons
  obtain ⟨front, byte, greatest⟩ := isGreatest_separates_of_decode read
  obtain ⟨separated, -, -, seam⟩ := isGreatest_separates_iff.mp greatest
  have begins : [colon] <+: bytes name ++ [byte] := colons.trans (List.prefix_append _ _)
  rcases separated with qualifier | ⟨-, opening⟩
  · have last : [colon] <:+ front := (List.suffix_cons _ _).trans qualifier
    exact seam ⟨last, begins⟩
  · -- Behind a space the segment begins with a parenthesis, which is no colon.
    have same := List.prefix_of_prefix_length_le begins opening (Nat.le_refl 1)
    exact absurd same (by decide)

/-- Every name that is decoded from any text is decoded again from the signature of a variant with
this name, whatever the type, unless it begins with a colon. In the qualified style it never
does. -/
theorem decoded_name_canonical (style : Style) (signature name : String)
    (read : decode style signature = .ok (some name)) :
    (¬[colon] <+: bytes name → ∀ type : String,
      decode style (style.declared type name) = .ok (some name)) ∧
    (style = .qualified → ¬[colon] <+: bytes name) := by
  have nonempty : name ≠ "" := ne_empty_of_decode_eq_ok read
  constructor
  · intro uncoloned type
    have begins : BeginsName name :=
      (beginsName_iff nonempty).mpr ⟨isInteger_of_decode_eq_ok read, uncoloned⟩
    exact (decode_declared_eq_some_iff nonempty).mpr ⟨begins, undelimited_of_decode read⟩
  · rintro rfl
    exact not_colon_prefix_of_decode_qualified read

/-- A name with brackets of its own, from a text that no variant has as its signature. -/
theorem decoded_name_canonical_nested :
    decode .bracketed "u<v<a::B>><w" = .ok (some "v<a::B>") ∧
      decode .bracketed (Style.declared .bracketed "x<" "v<a::B>") = .ok (some "v<a::B>") := by
  have read : decode .bracketed "u<v<a::B>><w" = .ok (some "v<a::B>") := by decide
  have uncoloned : ¬[colon] <+: bytes "v<a::B>" := by decide
  obtain ⟨again, -⟩ := decoded_name_canonical .bracketed "u<v<a::B>><w" "v<a::B>" read
  exact ⟨read, again uncoloned "x<"⟩

end EnumNames.Signature
