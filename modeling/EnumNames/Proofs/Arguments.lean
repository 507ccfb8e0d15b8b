import EnumNames.Proofs.Probe
import EnumNames.Proofs.Signature.Segments
/-!
# Types with arguments

The name of a type can have arguments between angle brackets, and an argument can be a path. The
last qualifier of such a name stands inside brackets, so the last segment closes brackets that it
does not open. A signature of the bracketed style is read by its brackets, and with the cast to such
a segment in it they do not match any more. How many brackets are left over decides how an integer
that is cast to the type is read, and all else about the name has no part in it.
-/
namespace EnumNames

open Text Signature

namespace Signature

/-- A part at the end of balanced text: it closes so many pairs of brackets that it does not open,
and no part at its own end opens more than it closes. -/
structure Closes (pairs : Nat) (segment : List UInt8) : Prop where
  /-- The pairs are those that are closed and not opened. -/
  surplus : segment.count closeAngle = segment.count openAngle + pairs
  /-- No part at the end opens more brackets than it closes. -/
  closed : ∀ part, part <:+ segment → part.count openAngle ≤ part.count closeAngle

variable {segment left right : List UInt8} {pairs more : Nat}

/-- A segment balances exactly if it closes no pair that it does not open. -/
theorem closes_zero_iff : Closes 0 segment ↔ Balanced segment :=
  ⟨fun ⟨surplus, closed⟩ => ⟨surplus.symm, closed⟩, fun ⟨equal, closed⟩ => ⟨equal.symm, closed⟩⟩

/-- The pairs that joined segments close add up. -/
theorem Closes.append (first : Closes pairs left) (second : Closes more right) :
    Closes (pairs + more) (left ++ right) := by
  have first_surplus := first.surplus
  have second_surplus := second.surplus
  refine ⟨by simp only [List.count_append]; omega, ?_⟩
  intro part final
  rcases List.suffix_or_suffix_of_suffix final (List.suffix_append left right)
    with short | ⟨front, rfl⟩
  · exact second.closed part short
  · have front_closed := first.closed front (List.suffix_append_self_iff.mp final)
    have right_closed := second.closed right List.suffix_rfl
    simp only [List.count_append]
    omega

/-- A part at the end of balanced text closes the pairs that are open in front of it. -/
theorem Balanced.closes (balanced : Balanced right) (final : segment <:+ right) :
    Closes (segment.count closeAngle - segment.count openAngle) segment := by
  have whole := balanced.closed segment final
  exact ⟨by omega, fun part inner => balanced.closed part (inner.trans final)⟩

/-- The number of pairs of brackets that the last segment of a type lies in: it closes them, and they
are opened in front of it. -/
def enclosing (type : String) : Nat :=
  (bytes (lastSegment type)).count closeAngle - (bytes (lastSegment type)).count openAngle

variable {type : String} {value : Int}

/-- The last segment of a type with balanced brackets closes the pairs that it lies in. -/
theorem closes_lastSegment (balanced : Balanced (bytes type)) :
    Closes (enclosing type) (bytes (lastSegment type)) :=
  Balanced.closes balanced (bytes_lastSegment_suffix type)

/-- The last segment of a type with balanced brackets balances exactly if it lies in no pair. -/
theorem enclosing_eq_zero_iff (balanced : Balanced (bytes type)) :
    enclosing type = 0 ↔ Balanced (bytes (lastSegment type)) := by
  constructor
  · intro outside
    have closes := closes_lastSegment balanced
    rw [outside] at closes
    exact closes_zero_iff.mp closes
  · intro segment_balanced
    have equal := segment_balanced.equal
    rw [enclosing]
    omega

/-- A cast to a segment closes the pairs that the segment closes. -/
theorem cast_closes (value : Int) (closes : Closes pairs (bytes type)) :
    Closes pairs (bytes (Style.cast .bracketed type value)) := by
  have opening : Closes 0 (bytes (Style.castOpening .bracketed)) :=
    closes_zero_iff.mpr (by decide)
  have closing : Closes 0 (bytes (Style.castClosing .bracketed value)) :=
    closes_zero_iff.mpr (isPlain_castClosing .bracketed value).balanced
  rw [cast_eq, bytes_append, bytes_append]
  simpa using (opening.append closes).append closing

/-- A value that closes one pair takes the bracket that opens the signature for its own. The text in
front of that bracket, with the value behind it, reads as a name. -/
theorem decode_signature_of_closes_one {text : String} (closes : Closes 1 (bytes text))
    (unqualified : ¬[colon, colon] <:+: bytes text) :
    decode .bracketed (Style.signature .bracketed text) = .ok (some ("stringify<" ++ text)) := by
  have cut : Style.opening .bracketed ++ text =
      "auto __cdecl strenum::" ++ ("stringify<" ++ text) := by
    rw [← String.append_assoc]
    rfl
  have balanced : Balanced (bytes ("stringify<" ++ text)) := by
    have surplus := closes.surplus
    rw [bytes_append]
    exact balancedWithin_append_iff.mpr ⟨closes.closed, 1, by omega, by decide⟩
  have whole_unqualified : ¬[colon, colon] <:+: bytes ("stringify<" ++ text) := by
    rw [bytes_append, pair_infix_append_iff]
    rintro (front | inside | ⟨seam, -⟩)
    · exact absurd front (by decide)
    · exact unqualified inside
    · exact absurd seam (by decide)
  obtain ⟨rest, begins⟩ : [115] <+: bytes ("stringify<" ++ text) := by
    rw [bytes_append]
    exact ⟨_, rfl⟩
  have named : isInteger ("stringify<" ++ text) = false := by
    rw [isInteger, ← begins]
    rfl
  have greatest : IsGreatest {start | SplitsAt (Style.Delimits .bracketed)
      (bytes "auto __cdecl strenum::" ++ bytes ("stringify<" ++ text)) start}
      (bytes "auto __cdecl strenum::").length := by
    rw [Style.Delimits, isGreatest_opens_iff]
    refine ⟨.inr (by decide), balanced, unqualified_of_not_infix whole_unqualified, ?_⟩
    rintro ⟨-, colons⟩
    rw [← begins] at colons
    exact absurd (List.cons_prefix_cons.mp colons).1 (by decide)
  rw [decode_signature_of_isGreatest cut greatest, named]
  rfl

/-- A value that closes several pairs closes some that nothing in the signature opens, so that no
delimiter is in front of a segment. -/
theorem decode_signature_of_closes_several {text : String} (closes : Closes (pairs + 2) (bytes text))
    (unqualified : ¬[colon, colon] <:+: bytes text) :
    decode .bracketed (Style.signature .bracketed text) =
      .error (.refusal .unrecognizedSignature) := by
  have surplus := closes.surplus
  have opened : (bytes (Style.opening .bracketed)).count openAngle = 1 := by decide
  -- In front of the value there is one bracket, and two would be needed.
  have longer : ∀ inner, inner <:+ bytes (Style.opening .bracketed) →
      ¬Balanced (inner ++ bytes text) := by
    intro inner final balanced
    have equal := balanced.equal
    have few := final.sublist.count_le openAngle
    simp only [List.count_append] at equal
    omega
  rw [decode_eq_refusal_iff, locate_eq_error_iff]
  refine ⟨rfl, fun span located => ?_⟩
  obtain ⟨-, splits, -⟩ := locate_signature_eq_ok_iff.mp located
  rw [bytes_append] at splits
  rcases Nat.lt_or_ge span.start (bytes (Style.opening .bracketed)).length with before | behind
  · have balanced := splits.parts.balanced
    rw [List.drop_append_of_le_length (Nat.le_of_lt before)] at balanced
    exact longer _ (List.drop_suffix _ _) balanced
  · obtain ⟨inner, rest, whole, -, balanced, delimited⟩ := exists_append_of_splitsAt splits behind
    have within : inner ≠ [] := by
      rintro rfl
      rw [List.nil_append] at whole
      exact longer [] List.nil_suffix (whole ▸ balanced)
    rcases delimited with opening | qualifier
    · obtain ⟨earlier, rfl⟩ := (singleton_suffix_append opening).resolve_left within
      have bound := closes.closed (openAngle :: rest) ⟨earlier, by rw [whole]; simp⟩
      have equal := balanced.equal
      rw [List.count_cons_self, List.count_cons_of_ne (by decide)] at bound
      omega
    · rcases pair_suffix_append qualifier with none | ⟨-, last⟩ | final
      · exact within none
      · exact absurd last (by decide)
      · rw [whole] at unqualified
        exact unqualified (final.isInfix.trans (List.prefix_append _ _).isInfix)

end Signature

namespace Enumeration

variable {enumeration : Enumeration} {style : Style} {value : Int}

/-- The signature of a value that no enumerator has is that of a cast to the last segment. -/
theorem undeclared_eq_signature (style : Style) (type : String) (value : Int) :
    style.undeclared type value = style.signature (style.cast (lastSegment type) value) :=
  rfl

/-- A probe at a value that no enumerator has reads the signature of the value, if it fits. -/
theorem nameAt_of_undeclared (absent : enumeration.find? value = none)
    (fits : (style.undeclared enumeration.name value).utf8ByteSize ≤ capacity) :
    enumeration.nameAt style value =
      match decode style (style.undeclared enumeration.name value) with
      | .error failure => .error failure.toAbort
      | .ok (some _) => .error .integerNamed
      | .ok none => .ok none := by
  rw [nameAt, absent]
  simp only [render_eq_ok_iff.mpr ⟨rfl, fits⟩, bind, Except.bind]
  cases decode style (style.undeclared enumeration.name value) with
  | error failure => rfl
  | ok name => cases name <;> rfl

/-- The answer of a probe at a value that no enumerator has, for a type whose brackets balance and
whose last segment lies in so many pairs of them. -/
def answerWithin : Style → (pairs : Nat) → Except Abort (Option String)
  | .qualified, _ => .ok none
  | .bracketed, 0 => .ok none
  | .bracketed, 1 => .error .integerNamed
  | .bracketed, _ + 2 => .error (.refused .unrecognizedSignature)

/-- How a value that no enumerator has is read where the brackets of the name balance as a whole and
the signature fits. There is no name in the qualified style, nor in the bracketed one if the last
qualifier of the name stands outside its brackets. Otherwise the probe fails at every such value: in
one pair of brackets the integer reads as a name, and in several the signature is not recognized. -/
theorem undeclared_value_of_balanced_name (style : Style) (enumeration : Enumeration) (value : Int)
    (balanced : Balanced (bytes enumeration.name))
    (absent : ∀ enumerator ∈ enumeration.enumerators, enumerator.value ≠ value)
    (fits : (style.undeclared enumeration.name value).utf8ByteSize ≤ capacity) :
    (enclosing enumeration.name = 0 ↔ Balanced (bytes (lastSegment enumeration.name))) ∧
    enumeration.nameAt style value = answerWithin style (enclosing enumeration.name) := by
  have outside := enclosing_eq_zero_iff balanced
  have unqualified := cast_unqualified .bracketed enumeration.name value
  have cast_closes := cast_closes value (closes_lastSegment balanced)
  refine ⟨outside, ?_⟩
  rw [nameAt_of_undeclared (find?_eq_none_iff.mpr absent) fits]
  cases style with
  | qualified =>
    rw [decode_undeclared_qualified]
    rfl
  | bracketed =>
    cases pairs : enclosing enumeration.name with
    | zero =>
      rw [decode_undeclared_bracketed (outside.mp pairs)]
      rfl
    | succ further =>
      rw [pairs] at cast_closes
      cases further with
      | zero =>
        rw [undeclared_eq_signature, decode_signature_of_closes_one cast_closes unqualified]
        rfl
      | succ more =>
        rw [undeclared_eq_signature, decode_signature_of_closes_several cast_closes unqualified]
        rfl

/-- Names whose last qualifier stands outside the brackets, inside one pair, and inside two. -/
theorem undeclared_value_of_balanced_name_nested :
    let enumeration (name : String) : Enumeration := ⟨name, .i8, [⟨1, "One"⟩], none, none, {}, 1024⟩
    (enumeration "a::Of<B>").nameAt .bracketed (-2) = .ok none ∧
      (enumeration "p::Of<a::B>").nameAt .bracketed (-2) = .error .integerNamed ∧
      (enumeration "Of<Of<a::B>>").nameAt .bracketed (-2) =
        .error (.refused .unrecognizedSignature) ∧
      (enumeration "Of<Of<a::B>>").nameAt .qualified (-2) = .ok none := by
  intro enumeration
  have outside := undeclared_value_of_balanced_name .bracketed (enumeration "a::Of<B>") (-2)
    (by decide) (by decide) (by decide)
  have once := undeclared_value_of_balanced_name .bracketed (enumeration "p::Of<a::B>") (-2)
    (by decide) (by decide) (by decide)
  have twice := undeclared_value_of_balanced_name .bracketed (enumeration "Of<Of<a::B>>") (-2)
    (by decide) (by decide) (by decide)
  have qualified := undeclared_value_of_balanced_name .qualified (enumeration "Of<Of<a::B>>") (-2)
    (by decide) (by decide) (by decide)
  have pairs : enclosing "a::Of<B>" = 0 ∧ enclosing "p::Of<a::B>" = 1 ∧
      enclosing "Of<Of<a::B>>" = 2 := by decide
  exact ⟨outside.2.trans (congrArg (answerWithin .bracketed) pairs.1),
    once.2.trans (congrArg (answerWithin .bracketed) pairs.2.1),
    twice.2.trans (congrArg (answerWithin .bracketed) pairs.2.2), qualified.2⟩

/-- The brackets of the name balance and the signature fits, but the value reads as a name: the
segment behind the last qualifier closes a bracket that it does not open. -/
theorem undeclared_value_named_in_argument :
    let enumeration : Enumeration := ⟨"Wrap<a::B>", .i8, [], none, none, {}, 1024⟩
    Balanced (bytes enumeration.name) ∧
      (Style.undeclared .bracketed enumeration.name 5).utf8ByteSize ≤ capacity ∧
      lastSegment enumeration.name = "B>" ∧
      enumeration.nameAt .bracketed 5 = .error .integerNamed := by
  intro enumeration
  have balanced : Balanced (bytes enumeration.name) := by decide
  have fits : (Style.undeclared .bracketed enumeration.name 5).utf8ByteSize ≤ capacity := by decide
  have segment : lastSegment enumeration.name = "B>" := by decide
  have pairs : enclosing enumeration.name = 1 := by decide
  have closes := closes_lastSegment balanced
  rw [pairs] at closes
  have read := decode_signature_of_closes_one (cast_closes 5 closes)
    (cast_unqualified .bracketed enumeration.name 5)
  refine ⟨balanced, fits, segment, ?_⟩
  rw [nameAt_of_undeclared rfl fits, undeclared_eq_signature, read]

end Enumeration

end EnumNames
