import EnumNames.Proofs.Signature.Delimiters
import EnumNames.Proofs.Text.Seams
import EnumNames.Signature.Name
/-!
# Reading back what a signature carries

A signature wraps a value between the two texts of its style. Whatever stands in front of a name,
the name is read back exactly if the reader of the style stops where the name starts, and then its
characters decide: which variants of a type have a signature that gives them back depends on the
variant alone.
-/
namespace EnumNames.Signature

open Text

/-- Which fronts and rests a delimiter of the style separates. -/
def Style.Delimits : Style → List UInt8 → List UInt8 → Prop
  | .bracketed => Opens 0
  | .qualified => Separates

/-- The bytes that close a signature of the bracketed style hold one closing bracket, the first. -/
theorem bytes_closing_bracketed :
    bytes (Style.closing .bracketed) = closeAngle :: [40, 118, 111, 105, 100, 41] :=
  rfl

/-- One byte closes a signature of the qualified style, which is no part of a separator. -/
theorem bytes_closing_qualified : bytes (Style.closing .qualified) = [93] :=
  rfl

/-- Where the segment of a text that is not empty lies is up to the reader of the style. -/
theorem locate_eq_ok_iff {style : Style} {signature : String} {span : Span}
    (nonempty : bytes signature ≠ []) :
    locate style signature = .ok span ↔
      (match style with
        | .bracketed => bracketed? (bytes signature).reverse
        | .qualified => qualified? (bytes signature).reverse) = some span := by
  obtain ⟨byte, before, reversed⟩ :=
    List.exists_cons_of_ne_nil (List.reverse_ne_nil_iff.mpr nonempty)
  unfold locate
  rw [reversed]
  cases style with
  | bracketed => cases found : bracketed? (byte :: before) <;> simp [found]
  | qualified => cases found : qualified? (byte :: before) <;> simp [found]

/-- The segment of a signature ends with the value in it, and starts at the greatest offset at
which a segment can. -/
theorem locate_signature_eq_ok_iff {style : Style} {value : String} {span : Span} :
    locate style (style.signature value) = .ok span ↔
      span.stop = (style.opening ++ value).utf8ByteSize ∧
        IsGreatest {start | SplitsAt style.Delimits (bytes (style.opening ++ value)) start}
          span.start := by
  rw [← length_bytes (style.opening ++ value)]
  cases style with
  | bracketed =>
    have whole : bytes (Style.signature .bracketed value) =
        bytes (Style.opening .bracketed ++ value) ++
          closeAngle :: [40, 118, 111, 105, 100, 41] := by
      rw [Style.signature, bytes_append, bytes_closing_bracketed]
    rw [locate_eq_ok_iff (by simp [whole]), whole]
    exact bracketed?_eq_some_iff (by decide)
  | qualified =>
    have whole : bytes (Style.signature .qualified value) =
        bytes (Style.opening .qualified ++ value) ++ [93] := by
      rw [Style.signature, bytes_append, bytes_closing_qualified]
    have same : ∀ start,
        SplitsAt Separates (bytes (Style.opening .qualified ++ value) ++ [93]) start ↔
          SplitsAt Separates (bytes (Style.opening .qualified ++ value)) start := by
      intro start
      rw [splitsAt_separates_concat_iff]
      simp [colon, parenthesis]
    rw [locate_eq_ok_iff (by simp [whole]), whole, qualified?_eq_some_iff]
    simp only [same, Style.Delimits]
    refine and_congr_right fun _ => and_iff_right_of_imp fun greatest => ?_
    exact greatest.1.inside

/-- A signature is decoded by taking its segment and telling a name from an integer. -/
theorem decode_eq_ok_iff {style : Style} {signature : String} {name : Option String} :
    decode style signature = .ok name ↔
      ∃ span segment, locate style signature = .ok span ∧
        slice signature span.start span.stop = .ok segment ∧
          name = if isInteger segment then none else some segment := by
  unfold decode
  split
  · next refusal refused => simp [refused]
  · next span found =>
    split
    · next fault failed => simp [found, failed]
    · next segment taken =>
      constructor
      · intro read
        exact ⟨span, segment, found, taken, (Except.ok.inj read).symm⟩
      · rintro ⟨other, part, located, sliced, rfl⟩
        cases found.symm.trans located
        cases taken.symm.trans sliced
        rfl

/-- A name is decoded exactly if it is the segment of the signature and no integer. -/
theorem decode_eq_some_iff {style : Style} {signature name : String} :
    decode style signature = .ok (some name) ↔
      ∃ span, locate style signature = .ok span ∧
        slice signature span.start span.stop = .ok name ∧ isInteger name = false := by
  rw [decode_eq_ok_iff]
  constructor
  · rintro ⟨span, segment, located, taken, shown⟩
    cases integer : isInteger segment with
    | true =>
      rw [integer] at shown
      cases shown
    | false =>
      rw [integer] at shown
      obtain rfl : name = segment := Option.some.inj shown
      exact ⟨span, located, taken, integer⟩
  · rintro ⟨span, located, taken, integer⟩
    exact ⟨span, name, located, taken, by rw [integer]; rfl⟩

/-- An integer is empty, or its first byte is a digit or a parenthesis. -/
theorem isInteger_eq_false_iff {segment : String} :
    isInteger segment = false ↔
      segment ≠ "" ∧
        ∀ first ∈ (bytes segment).head?, isDigit first = false ∧ first ≠ parenthesis := by
  have empty : bytes segment = [] ↔ segment = "" := by
    rw [← bytes_inj]
    rfl
  unfold isInteger
  rw [ne_eq, ← empty]
  cases bytes segment with
  | nil => simp
  | cons first rest => simp

variable {style : Style} {value front : String}

/-- A segment that starts at the greatest offset at which one can is what is decoded. -/
theorem decode_signature_of_isGreatest {segment : String}
    (cut : style.opening ++ value = front ++ segment)
    (greatest : IsGreatest {start | SplitsAt style.Delimits (bytes front ++ bytes segment) start}
      (bytes front).length) :
    decode style (style.signature value) =
      .ok (if isInteger segment then none else some segment) := by
  rw [decode_eq_ok_iff]
  refine ⟨⟨front.utf8ByteSize, (front ++ segment).utf8ByteSize⟩, segment, ?_, ?_, rfl⟩
  · rw [locate_signature_eq_ok_iff, cut, bytes_append]
    exact ⟨rfl, greatest⟩
  · rw [Style.signature, cut]
    exact slice_middle front segment _

/-- A name is decoded exactly if it is no integer and starts at the greatest offset at which a
segment can. -/
theorem decode_signature_eq_some_iff {name : String}
    (cut : style.opening ++ value = front ++ name) :
    decode style (style.signature value) = .ok (some name) ↔
      isInteger name = false ∧
        IsGreatest {start | SplitsAt style.Delimits (bytes front ++ bytes name) start}
          (bytes front).length := by
  constructor
  · intro read
    obtain ⟨span, located, taken, shown⟩ := decode_eq_some_iff.mp read
    obtain ⟨stop, greatest⟩ := locate_signature_eq_ok_iff.mp located
    refine ⟨shown, ?_⟩
    -- The end of the segment is known, so its length tells where it starts.
    have length := utf8ByteSize_of_slice_eq_ok taken
    have start : span.start = (bytes front).length := by
      rw [stop, cut, String.utf8ByteSize_append] at length
      rw [length_bytes]
      omega
    rwa [start, cut, bytes_append] at greatest
  · intro ⟨shown, greatest⟩
    rw [decode_signature_of_isGreatest cut greatest, shown]
    rfl

/-- A text begins as a name does: neither with a digit nor with an opening parenthesis, which begin
integers, nor with a colon, which a qualifier could take. -/
def BeginsName (text : String) : Prop :=
  ∀ first ∈ (bytes text).head?, isDigit first = false ∧ first ≠ parenthesis ∧ first ≠ colon

instance (text : String) : Decidable (BeginsName text) :=
  decidable_of_iff
    ((bytes text).head?.all fun first =>
      !isDigit first && first != parenthesis && first != colon) <| by
    rw [BeginsName]
    cases (bytes text).head? <;> simp [and_assoc]

/-- A text that is not empty begins as a name does if it shows no integer and has no colon in
front. -/
theorem beginsName_iff {text : String} (nonempty : text ≠ "") :
    BeginsName text ↔ isInteger text = false ∧ ¬[colon] <+: bytes text := by
  rw [isInteger_eq_false_iff, BeginsName]
  cases bytes text with
  | nil => simp [nonempty]
  | cons first rest =>
    have colons : [colon] <+: first :: rest ↔ first = colon := by
      rw [List.cons_prefix_cons, and_iff_left List.nil_prefix, eq_comm]
    rw [colons]
    simp [nonempty, and_assoc]

/-- The texts without a delimiter that a style would find in them. -/
def Style.Undelimited : Style → List UInt8 → Prop
  | .bracketed, segment => Balanced segment ∧ Unqualified segment
  | .qualified, segment => ¬[colon, colon] <:+: segment ∧ ¬[space, parenthesis] <:+: segment

/-- A value without a delimiter of the bracketed style is read as it stands: the bracket that opens
the signature is the only delimiter in front of it. -/
theorem decode_signature_of_undelimited
    (undelimited : Style.Undelimited .bracketed (bytes value)) :
    decode .bracketed (Style.signature .bracketed value) =
      .ok (if isInteger value then none else some value) := by
  have greatest : IsGreatest {start | SplitsAt (Style.Delimits .bracketed)
      (bytes (Style.opening .bracketed) ++ bytes value) start}
      (bytes (Style.opening .bracketed)).length := by
    rw [Style.Delimits, isGreatest_opens_iff]
    refine ⟨.inl (by decide), undelimited.1, undelimited.2, ?_⟩
    intro seam
    exact absurd seam.1 (by decide)
  exact decode_signature_of_isGreatest rfl greatest

/-- A variant is read back from its signature exactly if it begins as a name does and no delimiter
of the style stands in it. -/
theorem decode_declared_eq_some_iff {type variant : String} (nonempty : variant ≠ "") :
    decode style (style.declared type variant) = .ok (some variant) ↔
      BeginsName variant ∧ style.Undelimited (bytes variant) := by
  have cut : style.opening ++ (type ++ "::" ++ variant) =
      style.opening ++ (type ++ "::") ++ variant := by
    rw [String.append_assoc, String.append_assoc, String.append_assoc]
  have qualifier : [colon, colon] <:+ bytes (style.opening ++ (type ++ "::")) := by
    rw [← String.append_assoc, bytes_append]
    exact List.suffix_append _ _
  have last : [colon] <:+ bytes (style.opening ++ (type ++ "::")) :=
    (List.suffix_cons _ _).trans qualifier
  rw [Style.declared, decode_signature_eq_some_iff cut, beginsName_iff nonempty]
  cases style with
  | bracketed =>
    rw [Style.Delimits, isGreatest_opens_iff]
    simp only [qualifier, last]
    rw [Style.Undelimited]
    tauto
  | qualified =>
    rw [Style.Delimits, isGreatest_separates_iff, Separates]
    simp only [qualifier, last]
    rw [Style.Undelimited]
    tauto

/-- Which variants are read back from their signatures: in the bracketed style those with balanced
brackets and no qualifier outside them, in the qualified style those with neither a qualifier nor a
space in front of a parenthesis. The type in front of the variant has no part in it. -/
theorem declared_variant_read_back_iff (type variant : String) (nonempty : variant ≠ "") :
    (decode .bracketed (Style.declared .bracketed type variant) = .ok (some variant) ↔
      BeginsName variant ∧ Balanced (bytes variant) ∧ Unqualified (bytes variant)) ∧
    (decode .qualified (Style.declared .qualified type variant) = .ok (some variant) ↔
      BeginsName variant ∧ ¬[colon, colon] <:+: bytes variant ∧
        ¬[space, parenthesis] <:+: bytes variant) ∧
    ∀ (style : Style) (other : String),
      decode style (style.declared type variant) = .ok (some variant) ↔
        decode style (style.declared other variant) = .ok (some variant) := by
  refine ⟨decode_declared_eq_some_iff nonempty, decode_declared_eq_some_iff nonempty, ?_⟩
  intro style other
  rw [decode_declared_eq_some_iff nonempty, decode_declared_eq_some_iff nonempty]

/-- A type with brackets of its own and a variant that holds a qualifier inside its brackets. -/
theorem declared_variant_read_back_nested :
    "Of<a::B>" ≠ "" ∧
      decode .bracketed (Style.declared .bracketed "Wrap<" "Of<a::B>") = .ok (some "Of<a::B>") :=
  ⟨by decide,
    (declared_variant_read_back_iff "Wrap<" "Of<a::B>" (by decide)).1.mpr (by decide)⟩

end EnumNames.Signature
