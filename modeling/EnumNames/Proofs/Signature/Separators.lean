import EnumNames.Proofs.Signature.Canonical
import EnumNames.Proofs.Signature.Cuts
/-!
# Separators in front of the last byte

The reader of separators stops at the first one that it meets from the end. Said without a walk: the
segment starts behind the greatest offset at which a separator ends, and it runs up to the last byte.
If that byte is the end of the separator no segment is left, and an earlier separator is not tried.
The segment of a name is always behind a qualifier, for behind a space it would begin with a
parenthesis.
-/
namespace EnumNames.Signature

open Text

/-- A separator ends at this offset. -/
inductive SeparatorAt (text : List UInt8) (index : Nat) : Prop where
  /-- A colon is at the offset and another one in front of it. -/
  | qualifier (last : text[index]? = some colon) (behind : 0 < index)
      (first : text[index - 1]? = some colon)
  /-- A space is at the offset and a parenthesis behind it. -/
  | argument (blank : text[index]? = some space) (opened : text[index + 1]? = some parenthesis)

variable {signature name : String} {span : Span} {text front : List UInt8} {byte : UInt8}
  {start index : Nat}

/-- A separator ends inside the text. -/
theorem SeparatorAt.lt_length (separator : SeparatorAt text index) : index < text.length := by
  cases separator with
  | qualifier last _ _ => exact (List.getElem?_eq_some_iff.mp last).1
  | argument blank _ => exact (List.getElem?_eq_some_iff.mp blank).1

/-- What is behind so many bytes begins with the byte at that offset. -/
theorem singleton_prefix_drop_iff : [byte] <+: text.drop index ↔ text[index]? = some byte := by
  rw [singleton_prefix_iff, List.head?_drop]

/-- The offsets at which a text is separated are those behind the ends of separators. -/
theorem splitsAt_separates_iff :
    SplitsAt Separates text start ↔ ∃ index, SeparatorAt text index ∧ start = index + 1 := by
  constructor
  · intro ⟨inside, parts⟩
    cases start with
    | zero => simp [Separates] at parts
    | succ index =>
      have below : index < text.length := inside
      refine ⟨index, ?_, rfl⟩
      rcases parts with qualifier | ⟨blank, opened⟩
      · obtain ⟨last, behind, first⟩ := (pair_suffix_take_iff below).mp qualifier
        exact .qualifier last behind first
      · exact .argument ((singleton_suffix_take_iff below).mp blank)
          (singleton_prefix_drop_iff.mp opened)
  · rintro ⟨index, separator, rfl⟩
    have below := separator.lt_length
    refine ⟨below, ?_⟩
    cases separator with
    | qualifier last behind first => exact .inl ((pair_suffix_take_iff below).mpr ⟨last, behind, first⟩)
    | argument blank opened =>
      exact .inr ⟨(singleton_suffix_take_iff below).mpr blank, singleton_prefix_drop_iff.mpr opened⟩

/-- Where there is a separator, there is a last one. -/
theorem exists_isGreatest_separator (separator : SeparatorAt text index) :
    ∃ last, IsGreatest {index | SeparatorAt text index} last := by
  have bounded : BddAbove {index | SeparatorAt text index} :=
    ⟨text.length, fun _ other => Nat.le_of_lt other.lt_length⟩
  exact bounded.exists_isGreatest_of_nonempty ⟨index, separator⟩

/-- The segment in front of the last byte starts behind the last separator, unless that ends at the
last byte. -/
theorem locate_qualified_eq_ok_iff_separator (nonempty : signature ≠ "") :
    locate .qualified signature = .ok span ↔
      ∃ index, IsGreatest {index | SeparatorAt (bytes signature) index} index ∧
        index ≠ signature.utf8ByteSize - 1 ∧ span = ⟨index + 1, signature.utf8ByteSize - 1⟩ := by
  obtain ⟨front, byte, cut⟩ := exists_last_byte nonempty
  have size : signature.utf8ByteSize = front.length + 1 := by
    rw [← length_bytes, cut, List.length_append, List.length_singleton]
  have last : signature.utf8ByteSize - 1 = front.length := by omega
  have greatest_iff : IsGreatest {start | SplitsAt Separates (front ++ [byte]) start} span.start ↔
      ∃ index, IsGreatest {index | SeparatorAt (bytes signature) index} index ∧
        span.start = index + 1 := by
    rw [cut]
    exact isGreatest_iff_of_behind fun _ => splitsAt_separates_iff
  rw [locate_qualified_eq_ok_iff cut, greatest_iff, last]
  constructor
  · rintro ⟨stop, inside, index, greatest, starts⟩
    refine ⟨index, greatest, by omega, ?_⟩
    rw [← stop, ← starts]
  · rintro ⟨index, greatest, other, rfl⟩
    have below := SeparatorAt.lt_length greatest.1
    rw [length_bytes] at below
    refine ⟨rfl, ?_, index, greatest, rfl⟩
    show index + 1 ≤ front.length
    omega

/-- A name of the qualified style stands between a qualifier and the last byte. -/
theorem exists_qualifier_of_decode (read : decode .qualified signature = .ok (some name)) :
    ∃ front last, bytes signature = front ++ [colon, colon] ++ bytes name ++ [last] := by
  have nonempty : name ≠ "" := ne_empty_of_decode_eq_ok read
  obtain ⟨before, last, cut⟩ := exists_last_byte (signature_ne_empty_of_decode read)
  obtain ⟨span, located, taken, shown⟩ := decode_eq_some_iff.mp read
  obtain ⟨stop, inside, greatest⟩ := (locate_qualified_eq_ok_iff cut).mp located
  obtain ⟨-, -, exact⟩ := slice_eq_ok_iff.mp taken
  have segment : bytes name = before.drop span.start := by
    rw [exact, cut, stop, List.take_left]
  have whole : bytes signature = before.take span.start ++ bytes name ++ [last] := by
    rw [cut, segment, List.take_append_drop]
  rcases greatest.1.parts with qualifier | ⟨-, opened⟩
  · rw [List.take_append_of_le_length inside] at qualifier
    obtain ⟨front, ends⟩ := qualifier
    exact ⟨front, last, by rw [ends, whole]⟩
  · -- Behind a space the segment would begin with the parenthesis and show an integer.
    exfalso
    rw [List.drop_append_of_le_length inside, ← segment] at opened
    have some_byte : 1 ≤ (bytes name).length :=
      List.length_pos_iff.mpr (mt bytes_eq_nil_iff.mp nonempty)
    obtain ⟨rest, begins⟩ : [parenthesis] <+: bytes name :=
      List.prefix_of_prefix_length_le opened (List.prefix_append _ _) some_byte
    have unopened := (isInteger_eq_false_iff.mp shown).2 parenthesis (by rw [← begins]; rfl)
    exact unopened.2 rfl

/-- What the reader of separators finds in a signature that is not empty. Without a separator it
finds nothing, nor if the last one ends at the last byte, whatever separators are in front of it.
Otherwise the segment starts behind the last separator and runs up to the last byte. It starts at a
boundary, and it ends at one exactly if the last byte is below 128. A name that is decoded stands
directly behind a qualifier and in front of one byte, and no separator is in it. -/
theorem qualified_segment_behind_greatest_separator (signature : String)
    (nonempty : signature ≠ "") :
    (∀ span, locate .qualified signature = .ok span ↔
      ∃ index, IsGreatest {index | SeparatorAt (bytes signature) index} index ∧
        index ≠ signature.utf8ByteSize - 1 ∧ span = ⟨index + 1, signature.utf8ByteSize - 1⟩) ∧
    (locate .qualified signature = .error .unrecognizedSignature ↔
      (∀ index, ¬SeparatorAt (bytes signature) index) ∨
        IsGreatest {index | SeparatorAt (bytes signature) index} (signature.utf8ByteSize - 1)) ∧
    (∀ span, locate .qualified signature = .ok span →
      span.start ≤ span.stop ∧ IsBoundary signature span.start ∧
        (IsBoundary signature span.stop ↔ ∃ last ∈ (bytes signature).getLast?, last < 128)) ∧
    ∀ name, decode .qualified signature = .ok (some name) →
      (∃ front last, bytes signature = front ++ [colon, colon] ++ bytes name ++ [last]) ∧
        ¬[colon, colon] <:+: bytes name ∧ ¬[space, parenthesis] <:+: bytes name := by
  refine ⟨fun span => locate_qualified_eq_ok_iff_separator nonempty, ?_, ?_, ?_⟩
  · rw [locate_eq_error_iff, and_iff_right rfl]
    constructor
    · intro unlocated
      by_cases separated : ∃ index, SeparatorAt (bytes signature) index
      · obtain ⟨index, separator⟩ := separated
        obtain ⟨last, greatest⟩ := exists_isGreatest_separator separator
        by_cases final : last = signature.utf8ByteSize - 1
        · exact .inr (final ▸ greatest)
        · have located := (locate_qualified_eq_ok_iff_separator nonempty).mpr
            ⟨last, greatest, final, rfl⟩
          exact absurd located (unlocated _)
      · exact .inl (not_exists.mp separated)
    · intro refused span located
      obtain ⟨index, greatest, other, -⟩ := (locate_qualified_eq_ok_iff_separator nonempty).mp located
      rcases refused with unseparated | final
      · exact unseparated index greatest.1
      · exact other (greatest.unique final)
  · intro span located
    obtain ⟨front, byte, cut⟩ := exists_last_byte nonempty
    obtain ⟨ordered, -, starts, ends⟩ := boundaries_of_locate_qualified cut located
    refine ⟨ordered, starts, ends.trans ?_⟩
    rw [cut]
    simp
  · intro name read
    exact ⟨exists_qualifier_of_decode read, undelimited_of_decode read⟩

/-- Separators of both kinds, two that overlap, and the last one behind a character of two bytes. -/
theorem qualified_segment_behind_greatest_separator_mixed :
    let signature := "a::b (c:::Dé::f]"
    signature ≠ "" ∧ locate .qualified signature = .ok ⟨15, 16⟩ ∧
      IsGreatest {index | SeparatorAt (bytes signature) index} 14 := by
  intro signature
  have nonempty : signature ≠ "" := by decide
  have located : locate .qualified signature = .ok ⟨15, 16⟩ := by decide +kernel
  obtain ⟨segment, -⟩ := qualified_segment_behind_greatest_separator signature nonempty
  obtain ⟨index, greatest, -, same⟩ := (segment _).mp located
  obtain rfl : index = 14 := by simpa using (congrArg Span.start same).symm
  exact ⟨nonempty, located, greatest⟩

end EnumNames.Signature
