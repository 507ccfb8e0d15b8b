import EnumNames.Signature.Span
/-!
# The name in a signature

The segment that carries the value is either a name or an integer, and its first byte tells which.
A signature that shows an integer has no name, so a name is never empty.
-/
namespace EnumNames.Signature

open Text

/-- Whether a segment shows an integer: it is empty, or begins with a digit, or with the
parenthesis of a cast. -/
def isInteger (segment : String) : Bool :=
  match bytes segment with
  | [] => true
  | first :: _ => isDigit first || first == parenthesis

/-- The name that a signature carries, if the value in it is not an integer. The segment of a
signature can end inside a character, and taking it then ends the evaluation. -/
def decode (style : Style) (signature : String) : Except Failure (Option String) :=
  match locate style signature with
  | .error refusal => .error (.refusal refusal)
  | .ok span =>
    match slice signature span.start span.stop with
    | .error fault => .error (.abort (.text fault))
    | .ok segment => .ok (if isInteger segment then none else some segment)

/-- A name that a signature carries does not show an integer. -/
theorem isInteger_of_decode_eq_ok {style : Style} {signature name : String}
    (read : decode style signature = .ok (some name)) : isInteger name = false := by
  unfold decode at read
  split at read
  · contradiction
  split at read
  · contradiction
  · next segment _ =>
    cases shown : isInteger segment <;> simp_all

/-- A name that a signature carries is not empty. -/
theorem ne_empty_of_decode_eq_ok {style : Style} {signature name : String}
    (read : decode style signature = .ok (some name)) : name ≠ "" := by
  rintro rfl
  exact absurd (isInteger_of_decode_eq_ok read) (by decide)

end EnumNames.Signature
