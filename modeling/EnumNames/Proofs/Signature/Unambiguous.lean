import EnumNames.Proofs.Signature.Capacity
import Mathlib.Data.List.TakeWhile
/-!
# Casts read back

The name of a type can hold whatever a cast shows: parentheses, signs, digits, the mark of a base.
Only the end of a signature is safe from it. Behind the last parenthesis that closes stand the sign,
the mark and the digits, none of which is a parenthesis, so a reader that comes from the end finds
the value, and what is left is the type. Two signatures of values without a name are therefore the
same only if both the values and the last segments of the types are.
-/
namespace EnumNames.Signature

open Text

/-- The characters that spell a value behind the parenthesis of a cast. -/
def Style.spelling (style : Style) (value : Int) : List Char :=
  (sign value).toList ++ (style.baseMark.toList ++ Nat.toDigits style.base value.natAbs)

/-- The number that digits stand for behind the mark of a base. -/
def Style.numberShown (style : Style) (spelled : List Char) : Nat :=
  numberOf style.base (spelled.drop style.baseMark.toList.length)

/-- The value that characters spell in a style. -/
def Style.valueShown (style : Style) (spelled : List Char) : Int :=
  if spelled.head? = some '-' then -(style.numberShown spelled.tail : Int)
  else style.numberShown spelled

/-- The type and the value of a cast in a signature of the style, read from its end. -/
def Style.castShown (style : Style) (signature : String) : String × Int :=
  let reversed := signature.toList.reverse.drop style.closing.toList.length
  let front := (reversed.dropWhile (· ≠ ')')).tail.reverse
  (String.ofList (front.drop (style.opening.toList ++ style.castOpening.toList).length),
    style.valueShown (reversed.takeWhile (· ≠ ')')).reverse)

variable {style : Style} {type text other : String} {value : Int}

/-- A cast shows the type, a parenthesis and the spelling of the value. -/
theorem toList_cast (style : Style) (type : String) (value : Int) :
    (style.cast type value).toList =
      style.castOpening.toList ++ type.toList ++ ')' :: style.spelling value := by
  rw [cast_eq, castClosing_eq]
  simp only [Style.spelling, magnitude, String.toList_append, String.toList_ofList,
    List.append_assoc]
  rfl

/-- Only digits and the mark of a base stand behind the sign of a value. -/
theorem not_mem_magnitude (style : Style) (number : Nat) {char : Char}
    (foreign : char ∉ 'x' :: digitChars) :
    char ∉ style.baseMark.toList ++ Nat.toDigits style.base number := by
  intro member
  rcases List.mem_append.mp member with marked | digit
  · have mark : style.baseMark.toList ⊆ 'x' :: digitChars := by
      cases style <;> decide
    exact foreign (mark marked)
  · have numeral : IsNumeral style.base number (Nat.toDigits style.base number) :=
      isNumeral_base_iff.mpr rfl
    have known := List.mem_of_mem_take (numeral.known char digit)
    exact foreign (List.mem_cons_of_mem 'x' known)

/-- No parenthesis closes in the spelling of a value. -/
theorem not_mem_spelling (style : Style) (value : Int) : ')' ∉ style.spelling value := by
  intro member
  rcases List.mem_append.mp member with signed | shown
  · have minus : ')' ∉ (sign value).toList := by
      rw [sign]
      split <;> decide
    exact minus signed
  · exact not_mem_magnitude style value.natAbs (by decide) shown

/-- The number behind the mark of a base is that of the digits there. -/
theorem numberShown_toDigits (style : Style) (number : Nat) :
    style.numberShown (style.baseMark.toList ++ Nat.toDigits style.base number) = number := by
  have numeral : IsNumeral style.base number (Nat.toDigits style.base number) :=
    isNumeral_base_iff.mpr rfl
  rw [Style.numberShown, List.drop_left]
  exact numeral.value

/-- The spelling of a value is read back as the value. -/
theorem valueShown_spelling (style : Style) (value : Int) :
    style.valueShown (style.spelling value) = value := by
  by_cases negative : value < 0
  · have minus : style.spelling value =
        '-' :: (style.baseMark.toList ++ Nat.toDigits style.base value.natAbs) := by
      rw [Style.spelling, sign, if_pos negative]
      rfl
    rw [minus, Style.valueShown, List.head?_cons, List.tail_cons, if_pos rfl,
      numberShown_toDigits]
    omega
  · have plain : style.spelling value =
        style.baseMark.toList ++ Nat.toDigits style.base value.natAbs := by
      rw [Style.spelling, sign, if_neg negative]
      rfl
    have unsigned : (style.spelling value).head? ≠ some '-' := by
      intro minus
      rw [plain] at minus
      exact not_mem_magnitude style value.natAbs (by decide) (List.mem_of_head? minus)
    rw [Style.valueShown, if_neg unsigned, plain, numberShown_toDigits]
    omega

/-- Whatever the type, its name and the value are read back from the signature of a cast. -/
theorem castShown_signature (style : Style) (type : String) (value : Int) :
    style.castShown (style.signature (style.cast type value)) = (type, value) := by
  have passed : ∀ char ∈ (style.spelling value).reverse, decide (char ≠ ')') = true := by
    intro char member
    have other : char ≠ ')' := by
      rintro rfl
      exact not_mem_spelling style value (List.mem_reverse.mp member)
    exact decide_eq_true other
  have reversed : (style.signature (style.cast type value)).toList.reverse.drop
      style.closing.toList.length =
        (style.spelling value).reverse ++
          ')' :: (style.opening.toList ++ style.castOpening.toList ++ type.toList).reverse := by
    rw [Style.signature, String.toList_append, String.toList_append, toList_cast,
      List.reverse_append, ← List.length_reverse, List.drop_left]
    simp
  have spelled : ((style.spelling value).reverse ++ ')' :: (style.opening.toList ++
      style.castOpening.toList ++ type.toList).reverse).takeWhile (· ≠ ')') =
        (style.spelling value).reverse := by
    rw [List.takeWhile_append_of_pos passed]
    simp
  have front : ((style.spelling value).reverse ++ ')' :: (style.opening.toList ++
      style.castOpening.toList ++ type.toList).reverse).dropWhile (· ≠ ')') =
        ')' :: (style.opening.toList ++ style.castOpening.toList ++ type.toList).reverse := by
    rw [List.dropWhile_append_of_pos passed]
    simp
  simp only [Style.castShown, reversed, spelled, front, List.tail_cons, List.reverse_reverse,
    List.drop_left, String.ofList_toList, valueShown_spelling]

/-- The signatures of two values without a name are the same exactly if the values are and the types
have the same last segment. Whatever characters the name of a type holds, both are read back from
the signature. -/
theorem rendering_unambiguous (style : Style) (first second text other : String)
    (value value' : Int) (rendered : render style first value = .ok text)
    (rendered' : render style second value' = .ok other) :
    (text = other ↔ value = value' ∧ lastSegment first = lastSegment second) ∧
      style.castShown text = (lastSegment first, value) := by
  obtain ⟨rfl, -⟩ := render_eq_ok_iff.mp rendered
  obtain ⟨rfl, -⟩ := render_eq_ok_iff.mp rendered'
  have read := castShown_signature style (lastSegment first) value
  have read' := castShown_signature style (lastSegment second) value'
  refine ⟨?_, read⟩
  constructor
  · intro same
    have shown : (lastSegment first, value) = (lastSegment second, value') :=
      calc
        (lastSegment first, value) = style.castShown (style.undeclared first value) := read.symm
        _ = style.castShown (style.undeclared second value') := by rw [same]
        _ = (lastSegment second, value') := read'
    exact ⟨congrArg Prod.snd shown, congrArg Prod.fst shown⟩
  · rintro ⟨rfl, segment⟩
    rw [Style.undeclared, Style.undeclared, segment]

/-- Two paths that end in one segment, which imitates the end of a cast to another value. -/
theorem rendering_unambiguous_imitated :
    let text := "auto __cdecl strenum::stringify<(enum E)-0x1)-0xff>(void)"
    render .bracketed "a::E)-0x1" (-255) = .ok text ∧
      render .bracketed "b::c::E)-0x1" (-255) = .ok text ∧
      Style.castShown .bracketed text = ("E)-0x1", -255) := by
  intro text
  have rendered : render .bracketed "a::E)-0x1" (-255) = .ok text := by decide +kernel
  have rendered' : render .bracketed "b::c::E)-0x1" (-255) = .ok text := by decide +kernel
  have segment : lastSegment "a::E)-0x1" = "E)-0x1" := by decide
  obtain ⟨-, read⟩ := rendering_unambiguous .bracketed "a::E)-0x1" "b::c::E)-0x1" text text
    (-255) (-255) rendered rendered'
  rw [segment] at read
  exact ⟨rendered, rendered', read⟩

end EnumNames.Signature
