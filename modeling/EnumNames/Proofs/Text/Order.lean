import EnumNames.Text.Order
import EnumNames.Proofs.Text.Seams
/-!
# The order of texts is that of their characters

The forms of two characters differ at some byte, and at the first such byte the smaller character
has the smaller one. No form begins another, so what stands behind the characters makes no
difference. So the order of the bytes of two texts is the order of the numbers of their characters.
It is linear, and sorting by it puts texts that are the same next to each other.
-/
namespace EnumNames.Text

/-- In the first place in which two lists of bytes differ, the left one has the smaller byte. -/
inductive Precedes : List UInt8 → List UInt8 → Prop
  /-- The lists differ where they begin. -/
  | here {byte byte' : UInt8} (smaller : byte < byte') (rest rest' : List UInt8) :
      Precedes (byte :: rest) (byte' :: rest')
  /-- The lists begin alike and differ later. -/
  | later (byte : UInt8) {rest rest' : List UInt8} (precedes : Precedes rest rest') :
      Precedes (byte :: rest) (byte :: rest')

/-- The numbers of the characters of a text, in order. -/
def codes (text : String) : List Nat := text.toList.map Char.toNat

variable {rest rest' : List UInt8} {char char' : Char} {left right middle : String}

/-! ## The first byte that differs -/

/-- Whatever stands behind them, the lists still differ. -/
theorem Precedes.append (precedes : Precedes rest rest') (back back' : List UInt8) :
    Precedes (rest ++ back) (rest' ++ back') := by
  induction precedes with
  | here smaller rest rest' => exact .here smaller _ _
  | later byte _ hypothesis => exact .later byte hypothesis

/-- Bytes that two lists have in front in common make no difference. -/
theorem precedes_append_left (front : List UInt8) (precedes : Precedes rest rest') :
    Precedes (front ++ rest) (front ++ rest') := by
  induction front with
  | nil => exact precedes
  | cons byte front hypothesis => exact .later byte hypothesis

/-- The first byte that differs decides the order. -/
theorem Precedes.compareBytes_eq (precedes : Precedes rest rest') :
    compareBytes rest rest' = .lt := by
  induction precedes with
  | here smaller => rw [compareBytes, if_pos smaller]
  | later byte _ hypothesis =>
    have equal : ¬byte < byte := UInt8.lt_irrefl byte
    rw [compareBytes, if_neg equal, if_neg equal, hypothesis]

/-- Bytes that two lists have in front in common do not count. -/
theorem compareBytes_append (front rest rest' : List UInt8) :
    compareBytes (front ++ rest) (front ++ rest') = compareBytes rest rest' := by
  induction front with
  | nil => rfl
  | cons byte front hypothesis =>
    have equal : ¬byte < byte := UInt8.lt_irrefl byte
    rw [List.cons_append, List.cons_append, compareBytes, if_neg equal, if_neg equal, hypothesis]

/-- Exchanging two lists reverses their order. -/
theorem compareBytes_swap (rest rest' : List UInt8) :
    (compareBytes rest rest').swap = compareBytes rest' rest := by
  rw [compareBytes_eq, compareBytes_eq, ← Std.OrientedCmp.eq_swap]

/-! ## Forms of characters -/

/-- What is left of a number when so many digits in the base of 64 are cut off its end. -/
def lead : (more number : Nat) → Nat
  | 0, number => number
  | more + 1, number => lead more (number / 64)

/-- How many bytes the form of a character with this number has after its first. -/
def further (number : Nat) : Nat :=
  if number ≤ 0x7f then 0 else if number ≤ 0x7ff then 1 else if number ≤ 0xffff then 2 else 3

/-- The mark of so many further bytes, which is added to the first byte. -/
def mark : Nat → Nat
  | 0 => 0
  | 1 => 0xc0
  | 2 => 0xe0
  | 3 => 0xf0
  | _ => 0xf8

/-- The form of a number with so many further bytes: the first byte holds what is left in front,
with a mark, and every further one holds a digit in the base of 64. -/
def form (sign : Nat) : (more number : Nat) → List UInt8
  | 0, number => [UInt8.ofNat (number + sign)]
  | more + 1, number => form sign more (number / 64) ++ [UInt8.ofNat (number % 64 + 128)]

/-- The greatest character has the number 1114111. -/
theorem toNat_lt (char : Char) : char.toNat < 0x110000 := by
  have valid := char.valid
  simp only [UInt32.isValidChar, Nat.isValidChar] at valid
  have same : char.toNat = char.val.toNat := rfl
  omega

/-- A character has the form of its number, with the further bytes that it needs and their mark. -/
theorem utf8EncodeChar_eq_form (char : Char) :
    String.utf8EncodeChar char =
      form (mark (further char.toNat)) (further char.toNat) char.toNat := by
  have greatest := toNat_lt char
  rw [String.utf8EncodeChar]
  simp only [Char.toNat, further] at greatest ⊢
  split_ifs with one two three
  · rfl
  · have front : char.val.toNat / 64 < 0x20 := by omega
    simp only [form, mark, Nat.mod_eq_of_lt front, List.cons_append, List.nil_append]
  · have front : char.val.toNat / 4096 < 0x10 := by omega
    simp only [form, mark, Nat.mod_eq_of_lt front, Nat.div_div_eq_div_mul, List.cons_append,
      List.nil_append, Nat.reduceMul]
  · have front : char.val.toNat / 262144 < 0x08 := by omega
    simp only [form, mark, Nat.mod_eq_of_lt front, Nat.div_div_eq_div_mul, List.cons_append,
      List.nil_append, Nat.reduceMul]

/-! ## Which form comes first -/

/-- Numbers that fit into a byte are ordered as the bytes are. -/
theorem ofNat_lt_ofNat {number number' : Nat} (smaller : number < number')
    (fits : number' < 256) : UInt8.ofNat number < UInt8.ofNat number' := by
  have small : number < 256 := Nat.lt_trans smaller fits
  rw [UInt8.lt_iff_toNat_lt, UInt8.toNat_ofNat', UInt8.toNat_ofNat', Nat.mod_eq_of_lt small,
    Nat.mod_eq_of_lt fits]
  exact smaller

/-- A form begins with what is left in front and the mark. -/
theorem exists_form_eq_cons (sign more number : Nat) :
    ∃ rest, form sign more number = UInt8.ofNat (lead more number + sign) :: rest := by
  induction more generalizing number with
  | zero => exact ⟨[], rfl⟩
  | succ more hypothesis =>
    obtain ⟨rest, begins⟩ := hypothesis (number / 64)
    exact ⟨rest ++ [UInt8.ofNat (number % 64 + 128)], by rw [form, begins]; rfl⟩

/-- The form of a smaller number precedes one with as many bytes. -/
theorem precedes_form {sign more number number' : Nat} (smaller : number < number')
    (fits : lead more number' + sign < 256) :
    Precedes (form sign more number) (form sign more number') := by
  induction more generalizing number number' with
  | zero =>
    have less : number + sign < number' + sign := Nat.add_lt_add_right smaller sign
    exact .here (ofNat_lt_ofNat less fits) [] []
  | succ more hypothesis =>
    by_cases front : number / 64 < number' / 64
    · exact (hypothesis front fits).append _ _
    · -- The numbers differ in the last digit only, so the bytes in front of it are the same.
      have equal : number / 64 = number' / 64 := by omega
      have digit : number % 64 + 128 < number' % 64 + 128 := by omega
      have last : number' % 64 + 128 < 256 := by omega
      rw [form, form, equal]
      exact precedes_append_left _ (.here (ofNat_lt_ofNat digit last) [] [])

/-- A form with a smaller first byte precedes another. -/
theorem precedes_form_of_lead {sign sign' more more' number number' : Nat}
    (smaller : lead more number + sign < lead more' number' + sign')
    (fits : lead more' number' + sign' < 256) :
    Precedes (form sign more number) (form sign' more' number') := by
  obtain ⟨rest, begins⟩ := exists_form_eq_cons sign more number
  obtain ⟨rest', begins'⟩ := exists_form_eq_cons sign' more' number'
  rw [begins, begins']
  exact .here (ofNat_lt_ofNat smaller fits) rest rest'

/-- A smaller number has no more further bytes. -/
theorem further_le {number number' : Nat} (smaller : number < number') :
    further number ≤ further number' := by
  rw [further, further]
  split_ifs <;> omega

/-- More further bytes have a greater mark. -/
theorem mark_le {more more' : Nat} (fewer : more ≤ more') : mark more ≤ mark more' := by
  have one (more : Nat) : mark more ≤ mark (more + 1) := by
    match more with
    | 0 | 1 | 2 | 3 => decide
    | _ + 4 => exact Nat.le_refl 0xf8
  induction fewer with
  | refl => exact Nat.le_refl (mark more)
  | step _ hypothesis => exact Nat.le_trans hypothesis (one _)

/-- The first byte of the form of a character is below the mark of one further byte. -/
theorem lead_add_mark_lt {number : Nat} (small : number < 0x110000) :
    lead (further number) number + mark (further number) < mark (further number + 1) := by
  rw [further]
  split_ifs <;> simp only [lead, mark] <;> omega

/-- The form of a smaller character precedes that of a greater one. -/
theorem precedes_utf8EncodeChar (smaller : char.toNat < char'.toNat) :
    Precedes (String.utf8EncodeChar char) (String.utf8EncodeChar char') := by
  have first := lead_add_mark_lt (toNat_lt char)
  have first' := lead_add_mark_lt (toNat_lt char')
  have few : further char'.toNat + 1 ≤ 4 := by
    rw [further]
    split_ifs <;> decide
  have fits : mark (further char'.toNat + 1) ≤ 0xf8 := mark_le few
  rw [utf8EncodeChar_eq_form, utf8EncodeChar_eq_form]
  rcases Nat.eq_or_lt_of_le (further_le smaller) with same | fewer
  · rw [same]
    exact precedes_form smaller (by omega)
  · have apart : mark (further char.toNat + 1) ≤ mark (further char'.toNat) := mark_le fewer
    exact precedes_form_of_lead (by omega) (by omega)

/-! ## The order of the characters -/

/-- No bytes come before any others. -/
theorem compareBytes_nil_left (present : rest ≠ []) : compareBytes [] rest = .lt := by
  cases rest with
  | nil => contradiction
  | cons byte rest => exact Nat.compare_eq_lt.mpr (Nat.succ_pos rest.length)

/-- The forms of characters are ordered as the characters are. -/
theorem compareBytes_flatMap (left right : List Char) :
    compareBytes (left.flatMap String.utf8EncodeChar) (right.flatMap String.utf8EncodeChar) =
      List.compareLex Ord.compare (left.map Char.toNat) (right.map Char.toNat) := by
  have present (char : Char) (rest : List Char) :
      (char :: rest).flatMap String.utf8EncodeChar ≠ [] := by
    rw [List.flatMap_cons]
    exact List.append_ne_nil_of_left_ne_nil String.utf8EncodeChar_ne_nil _
  induction left generalizing right with
  | nil =>
    cases right with
    | nil => rfl
    | cons char rest => exact compareBytes_nil_left (present char rest)
  | cons char rest hypothesis =>
    cases right with
    | nil =>
      rw [← compareBytes_swap, List.flatMap_nil, compareBytes_nil_left (present char rest)]
      rfl
    | cons char' rest' =>
      rw [List.flatMap_cons, List.flatMap_cons, List.map_cons, List.map_cons,
        List.compareLex_cons_cons]
      rcases Nat.lt_trichotomy char.toNat char'.toNat with smaller | equal | greater
      · have precedes := (precedes_utf8EncodeChar smaller).append
        rw [(precedes _ _).compareBytes_eq, Nat.compare_eq_lt.mpr smaller, Ordering.lt_then]
      · rw [Char.toNat_inj.mp equal, compareBytes_append, hypothesis, Nat.compare_eq_eq.mpr rfl,
          Ordering.eq_then]
      · have precedes := (precedes_utf8EncodeChar greater).append
        rw [← compareBytes_swap, (precedes _ _).compareBytes_eq, Nat.compare_eq_gt.mpr greater,
          Ordering.gt_then]
        rfl

/-- Texts are ordered as the numbers of their characters are. -/
theorem compare_eq_codes (left right : String) :
    compare left right = List.compareLex Ord.compare (codes left) (codes right) := by
  rw [compare, bytes_eq_flatMap, bytes_eq_flatMap, compareBytes_flatMap, codes, codes]

/-! ## A linear order -/

/-- A text that is at most one that is at most a third is at most the third. -/
theorem isLE_compare_trans (first : (compare left middle).isLE)
    (second : (compare middle right).isLE) : (compare left right).isLE := by
  rw [compare, compareBytes_eq] at *
  exact Std.TransCmp.isLE_trans first second

/-- Of two texts one is at most the other. -/
theorem isLE_compare_total (left right : String) :
    (compare left right).isLE ∨ (compare right left).isLE := by
  rw [← compare_swap left right]
  cases compare left right with
  | lt => exact .inl rfl
  | eq => exact .inl rfl
  | gt => exact .inr rfl

/-- Texts that are at most each other are the same. -/
theorem eq_of_isLE_compare (first : (compare left right).isLE)
    (second : (compare right left).isLE) : left = right := by
  rw [compare, compareBytes_eq] at first second
  have equal := Std.OrientedCmp.isLE_antisymm first second
  rwa [Std.LawfulEqCmp.compare_eq_iff_eq, bytes_inj] at equal

/-- A text comes before every longer text that begins with it. -/
theorem compare_append {more : String} (front : String) (present : more ≠ "") :
    compare front (front ++ more) = .lt := by
  have begins := compareBytes_append (bytes front) [] (bytes more)
  rw [List.append_nil, ← bytes_append] at begins
  rw [compare, begins]
  refine compareBytes_nil_left fun none => present ?_
  exact bytes_inj.mp none

/-- Two texts are the same in the order exactly if they have the same bytes. -/
theorem same_eq (left right : String) : same left right = (left == right) := by
  rw [same, Bool.eq_iff_iff, Ordering.isEq_iff_eq_eq, compare_eq_iff, beq_iff_eq]

/-! ## Sorted texts -/

/-- The sorted texts ascend. -/
theorem pairwise_sort (texts : List String) :
    (sort texts).Pairwise fun left right => (compare left right).isLE := by
  refine List.pairwise_mergeSort (fun left middle right => ?_) (fun left right => ?_) texts
  · exact isLE_compare_trans
  · rw [Bool.or_eq_true]
    exact isLE_compare_total left right

/-- The texts have no other ascending arrangement. -/
theorem eq_sort_of_pairwise {texts arranged : List String} (perm : arranged.Perm texts)
    (ascends : arranged.Pairwise fun left right => (compare left right).isLE) :
    arranged = sort texts := by
  refine List.Perm.eq_of_pairwise (fun left right _ _ => ?_) ascends (pairwise_sort texts)
    (perm.trans (sort_perm texts).symm)
  exact eq_of_isLE_compare

/-- Nothing else stands between two texts that are the same. -/
theorem eq_of_sublist_sort {texts : List String} {text : String}
    (between : [text, middle, text].Sublist (sort texts)) : middle = text := by
  have ascends := (pairwise_sort texts).sublist between
  simp only [List.pairwise_cons, List.mem_cons, List.not_mem_nil, or_false] at ascends
  obtain ⟨first, second, -⟩ := ascends
  exact eq_of_isLE_compare (second text rfl) (first middle (.inl rfl))

/-- The order of texts is that of their bytes and also that of the numbers of their characters. It
is linear, a text comes before every longer one that begins with it, and texts the same in the order
are the same. So sorting has one result, which ascends by the numbers of the characters, and puts
texts that are the same next to each other. -/
theorem compare_linear (left middle right front more : String) (texts arranged : List String) :
    compare left right = List.compareLex Ord.compare (bytes left) (bytes right) ∧
      compare left right = List.compareLex Ord.compare (codes left) (codes right) ∧
      (compare left right).swap = compare right left ∧
      ((compare left middle).isLE → (compare middle right).isLE → (compare left right).isLE) ∧
      ((compare left right).isLE ∨ (compare right left).isLE) ∧
      ((compare left right).isLE → (compare right left).isLE → left = right) ∧
      (more ≠ "" → compare front (front ++ more) = .lt) ∧
      (compare left right = .eq ↔ left = right) ∧
      same left right = (left == right) ∧
      partialCompare left right = some (compare left right) ∧
      (sort texts).Perm texts ∧
      ((sort texts).Pairwise fun text next =>
        (List.compareLex Ord.compare (codes text) (codes next)).isLE) ∧
      (arranged.Perm texts → (arranged.Pairwise fun text next => (compare text next).isLE) →
        arranged = sort texts) ∧
      ([left, middle, left].Sublist (sort texts) → middle = left) := by
  have ascends := pairwise_sort texts
  simp only [compare_eq_codes] at ascends
  have byBytes : compare left right = List.compareLex Ord.compare (bytes left) (bytes right) :=
    compareBytes_eq (bytes left) (bytes right)
  exact ⟨byBytes, compare_eq_codes left right, compare_swap left right, isLE_compare_trans,
    isLE_compare_total left right, eq_of_isLE_compare, compare_append front, compare_eq_iff,
    same_eq left right, rfl, sort_perm texts, ascends, eq_sort_of_pairwise, eq_of_sublist_sort⟩

/-- Sorting goes by the numbers of the characters where these have forms of different lengths. -/
theorem compare_linear_accented :
    (compare "z" "é").isLE ∧ (compare "é" "😀").isLE ∧ (compare "z" "😀").isLE ∧
      compare "é" ("é" ++ "a") = .lt ∧
      sort ["é", "😀", "é", "z", "é"] = ["z", "é", "é", "é", "😀"] ∧
      ["é", "é", "é"].Sublist (sort ["é", "😀", "é", "z", "é"]) ∧ "é" = "é" := by
  have first : (compare "z" "é").isLE := by decide
  have second : (compare "é" "😀").isLE := by decide
  have present : "a" ≠ "" := by decide
  have perm : ["z", "é", "é", "é", "😀"].Perm ["é", "😀", "é", "z", "é"] := by decide
  have ascends : ["z", "é", "é", "é", "😀"].Pairwise fun text next => (compare text next).isLE := by
    decide
  obtain ⟨-, -, -, trans, -, -, longer, -, -, -, -, -, sorted, -⟩ :=
    compare_linear "z" "é" "😀" "é" "a" ["é", "😀", "é", "z", "é"] ["z", "é", "é", "é", "😀"]
  have arrangement := sorted perm ascends
  have between : ["é", "é", "é"].Sublist (sort ["é", "😀", "é", "z", "é"]) := by
    rw [← arrangement]
    decide
  have equal : (compare "é" "é").isLE := by decide
  obtain ⟨-, -, -, -, -, antisymm, -⟩ := compare_linear "é" "é" "é" "" "" [] []
  exact ⟨first, second, trans first second, longer present, arrangement.symm, between,
    antisymm equal equal⟩

end EnumNames.Text
