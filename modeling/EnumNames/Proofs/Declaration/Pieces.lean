import EnumNames.Declaration.Markers
import EnumNames.Proofs.Declaration.Options
/-!
# What an item takes

Where groups end in the order in which they began, what stands in a group ends where the group does.
So an item takes a piece of the tokens: single tokens and whole groups, with no comma between them.
A comma behind whole groups is then the end of an item, whatever stands on its other side.
-/
namespace EnumNames.Declaration

namespace Token

/-- Whether the token begins or ends a group. -/
def isDelimiter : Token → Bool
  | opening _ | closing _ => true
  | _ => false

variable {token : Token} {inner rest tokens : List Token} {stack outer : List Delimiter}
  {delimiter : Delimiter}

/-- Whether the token is punctuation. -/
def isMark : Token → Bool
  | mark _ _ => true
  | _ => false

/-- A token that is no delimiter nests nothing. -/
theorem nested_cons (plain : token.isDelimiter = false) :
    nested outer (token :: rest) = nested outer rest := by
  cases token with
  | opening delimiter => cases plain
  | closing delimiter => cases plain
  | _ => cases outer <;> rfl

/-- Whether punctuation is a comma does not depend on what it is joined to. -/
theorem separates_mark {char : Char} {joint other : Bool} :
    (mark char joint).separates = (mark char other).separates := by
  by_cases comma : char = ','
  · rw [comma]
    rfl
  · simp [separates, comma]

/-- The end of a group ends the innermost one. -/
theorem nested_closing_cons :
    nested (delimiter :: outer) (closing delimiter :: rest) = nested outer rest := by
  rw [nested, beq_self_eq_true, Bool.true_and]

/-- Where all groups of the tokens in front end, the others are nested as before. -/
theorem nested_append_of_nested (stack outer : List Delimiter) (closed : nested stack inner) :
    nested (stack ++ outer) (inner ++ rest) = nested outer rest := by
  induction inner generalizing stack with
  | nil =>
    rw [nested, List.isEmpty_iff] at closed
    rw [closed]
    rfl
  | cons token later hypothesis =>
    cases token with
    | opening delimiter => exact hypothesis (delimiter :: stack) closed
    | closing delimiter =>
      cases stack with
      | nil => cases closed
      | cons current stack =>
        rw [nested, Bool.and_eq_true, beq_iff_eq] at closed
        obtain ⟨rfl, closed⟩ := closed
        exact nested_closing_cons.trans (hypothesis stack closed)
    | _ =>
      have closed : nested stack later := (nested_cons rfl).symm.trans closed
      exact (nested_cons rfl).trans (hypothesis stack closed)

/-- Tokens whose groups all end do not nest what is behind them. -/
theorem nested_append (closed : nested [] inner) :
    nested outer (inner ++ rest) = nested outer rest :=
  nested_append_of_nested [] outer closed

/-- A token at the end that is no delimiter nests nothing. -/
theorem nested_concat (plain : token.isDelimiter = false) :
    nested outer (tokens ++ [token]) = nested outer tokens := by
  induction tokens generalizing outer with
  | nil => exact nested_cons plain
  | cons first later hypothesis =>
    cases first with
    | opening delimiter => exact hypothesis
    | closing delimiter =>
      cases outer with
      | nil => rfl
      | cons current outer => exact congrArg ((delimiter == current) && ·) hypothesis
    | _ => exact (nested_cons rfl).trans (hypothesis.trans (nested_cons rfl).symm)

/-- A group that is open ends somewhere. -/
theorem exists_closing_of_nested (stack outer : List Delimiter)
    (closed : nested (stack ++ delimiter :: outer) tokens) :
    ∃ inner rest, tokens = inner ++ closing delimiter :: rest ∧ nested stack inner ∧
      nested outer rest := by
  induction tokens generalizing stack with
  | nil =>
    rw [nested, List.isEmpty_iff] at closed
    simp at closed
  | cons token later hypothesis =>
    cases token with
    | opening found =>
      obtain ⟨inner, rest, rfl, ends, after⟩ := hypothesis (found :: stack) closed
      exact ⟨opening found :: inner, rest, rfl, ends, after⟩
    | closing found =>
      cases stack with
      | nil =>
        rw [List.nil_append, nested, Bool.and_eq_true, beq_iff_eq] at closed
        obtain ⟨rfl, closed⟩ := closed
        exact ⟨[], later, rfl, rfl, closed⟩
      | cons current stack =>
        rw [List.cons_append, nested, Bool.and_eq_true, beq_iff_eq] at closed
        obtain ⟨rfl, closed⟩ := closed
        obtain ⟨inner, rest, rfl, ends, after⟩ := hypothesis stack closed
        exact ⟨closing found :: inner, rest, rfl, nested_closing_cons.trans ends, after⟩
    | _ =>
      have closed : nested (stack ++ delimiter :: outer) later :=
        (nested_cons rfl).symm.trans closed
      obtain ⟨inner, rest, rfl, ends, after⟩ := hypothesis stack closed
      exact ⟨_ :: inner, rest, rfl, (nested_cons rfl).trans ends, after⟩

/-- Tokens whose groups all end stand in front of the end of the group around them. -/
theorem toClosing_append_of_nested (delimiter : Delimiter) (rest : List Token)
    (stack : List Delimiter) (closed : nested stack inner) :
    toClosing stack.length (inner ++ closing delimiter :: rest) = inner ∧
      fromClosing stack.length (inner ++ closing delimiter :: rest) =
        closing delimiter :: rest := by
  induction inner generalizing stack with
  | nil =>
    rw [nested, List.isEmpty_iff] at closed
    subst closed
    exact ⟨rfl, rfl⟩
  | cons token later hypothesis =>
    cases token with
    | opening found =>
      obtain ⟨inside, after⟩ := hypothesis (found :: stack) closed
      exact ⟨congrArg (opening found :: ·) inside, after⟩
    | closing found =>
      cases stack with
      | nil => cases closed
      | cons current stack =>
        rw [nested, Bool.and_eq_true] at closed
        obtain ⟨inside, after⟩ := hypothesis stack closed.2
        exact ⟨congrArg (closing found :: ·) inside, after⟩
    | _ =>
      have closed : nested stack later := (nested_cons rfl).symm.trans closed
      obtain ⟨inside, after⟩ := hypothesis stack closed
      exact ⟨congrArg (_ :: ·) inside, after⟩

/-- The inside of a group is what ends all of its own groups in front of its end. -/
theorem inside_of_nested (delimiter : Delimiter) (rest : List Token) (closed : nested [] inner) :
    inside (inner ++ closing delimiter :: rest) = inner ∧
      afterClosing (inner ++ closing delimiter :: rest) = rest := by
  obtain ⟨inside, after⟩ := toClosing_append_of_nested delimiter rest [] closed
  exact ⟨inside, congrArg List.tail after⟩

end Token

open Token

/-- An item ends where a comma is next. -/
theorem closesItem_cons (joint : Bool) (later : List Token) :
    ClosesItem (.mark ',' joint :: later) :=
  closesItem_iff.mpr (.inr ⟨joint, later, rfl⟩)

/-- Where an item ends only a comma can be next. -/
theorem ClosesItem.head?_ne {rest : List Token} {token : Token} (closes : ClosesItem rest)
    (other : token.separates = false) : rest.head? ≠ some token := by
  intro first
  have separates : token.separates := closes token first
  exact absurd (separates.symm.trans other) (by decide)

/-! ## Pieces -/

/-- Tokens and groups with no comma between them. -/
inductive Piece : List Token → Prop where
  /-- No tokens. -/
  | nil : Piece []
  /-- A token that is neither a delimiter nor a comma. -/
  | token {token : Token} {rest : List Token} (plain : token.isDelimiter = false)
      (joins : token.separates = false) (later : Piece rest) : Piece (token :: rest)
  /-- A group, whatever stands in it. -/
  | group {delimiter : Delimiter} {inner rest : List Token} (closed : nested [] inner)
      (later : Piece rest) : Piece (opening delimiter :: inner ++ closing delimiter :: rest)

namespace Piece

variable {taken rest front back : List Token} {token : Token}

/-- A token on its own. -/
theorem single (plain : token.isDelimiter = false) (joins : token.separates = false) :
    Piece [token] :=
  .token plain joins .nil

/-- One piece behind another is a piece. -/
theorem append (first : Piece taken) (second : Piece rest) : Piece (taken ++ rest) := by
  induction first with
  | nil => exact second
  | token plain joins _ hypothesis => exact .token plain joins hypothesis
  | @group delimiter inner later closed _ hypothesis =>
    rw [List.append_assoc]
    exact .group closed hypothesis

/-- The groups of a piece all end. -/
theorem nested (piece : Piece taken) : nested [] taken := by
  induction piece with
  | nil => rfl
  | token plain _ _ hypothesis => exact (nested_cons plain).trans hypothesis
  | group closed _ hypothesis =>
    change Token.nested [_] (_ ++ closing _ :: _) = true
    rwa [nested_append closed, nested_closing_cons]

/-- The groups behind a piece all end if those of all tokens do. -/
theorem nested_append_iff (piece : Piece taken) :
    Token.nested [] (taken ++ rest) = Token.nested [] rest :=
  nested_append piece.nested

/-- A piece in front does not reach over a comma behind whole groups. -/
theorem exists_of_append_eq (piece : Piece taken) (closed : Token.nested [] front) {joint : Bool}
    (same : front ++ .mark ',' joint :: back = taken ++ rest) :
    ∃ more, front = taken ++ more ∧ more ++ .mark ',' joint :: back = rest := by
  induction piece generalizing front with
  | nil => exact ⟨front, rfl, same⟩
  | @token token later plain joins _ hypothesis =>
    match front with
    | [] =>
      cases same
      cases joins
    | first :: front =>
      rw [List.cons_append, List.cons_append, List.cons.injEq] at same
      obtain ⟨rfl, same⟩ := same
      rw [nested_cons plain] at closed
      obtain ⟨more, rfl, whole⟩ := hypothesis closed same
      exact ⟨more, rfl, whole⟩
  | @group delimiter inner later ends _ hypothesis =>
    match front with
    | [] => cases same
    | first :: front =>
      rw [List.cons_append, List.cons_append, List.cons_append, List.append_assoc,
        List.cons.injEq] at same
      obtain ⟨rfl, same⟩ := same
      obtain ⟨found, behind, rfl, inside, closed⟩ :=
        exists_closing_of_nested [] [] closed
      -- Both spell the same group, so it has the same inside and the same end.
      rw [List.append_assoc, List.cons_append, List.cons_append] at same
      have first := inside_of_nested delimiter (behind ++ .mark ',' joint :: back) inside
      have second := inside_of_nested delimiter (later ++ rest) ends
      rw [same] at first
      obtain rfl := first.1.symm.trans second.1
      obtain ⟨more, rfl, whole⟩ := hypothesis closed (first.2.symm.trans second.2)
      exact ⟨more, by simp, whole⟩

end Piece

/-- A piece that ends in a token which no punctuation behind it changes. -/
structure WholePiece (taken : List Token) : Prop where
  /-- It is a piece. -/
  piece : Piece taken
  /-- Its last token is no punctuation. -/
  ends : ∃ front last, taken = front ++ [last] ∧ last.isMark = false

namespace WholePiece

variable {taken rest : List Token} {token : Token}

/-- A token on its own that is neither a delimiter nor punctuation. -/
theorem single (plain : token.isDelimiter = false) (whole : token.isMark = false) :
    WholePiece [token] := by
  refine ⟨.single plain ?_, [], token, rfl, whole⟩
  cases token with
  | mark char joint => cases whole
  | _ => rfl

/-- A group on its own. -/
theorem group {delimiter : Delimiter} (closed : nested [] taken) :
    WholePiece (opening delimiter :: taken ++ [closing delimiter]) :=
  ⟨.group closed .nil, _, _, rfl, rfl⟩

/-- What stands in front of a whole piece may be any piece. -/
theorem append (first : Piece taken) (second : WholePiece rest) : WholePiece (taken ++ rest) := by
  obtain ⟨front, last, rfl, whole⟩ := second.ends
  exact ⟨first.append second.piece, taken ++ front, last, (List.append_assoc ..).symm, whole⟩

end WholePiece

/-! ## Readers that take pieces -/

/-- Where all groups end, the reader takes tokens of this form. -/
def Reader.Takes {α : Type} (reader : Reader α) (form : List Token → Prop) : Prop :=
  ∀ ⦃tokens value rest unread⦄, reader.Reads tokens value rest unread → nested [] tokens →
    ∃ taken, tokens = taken ++ rest ∧ form taken

namespace Reader

variable {α β : Type} {reader : Reader α} {form : List Token → Prop} {char : Char}

/-- A value that is given is the same in front of any tokens. -/
theorem Reads.of_pure {value found : α} {tokens rest : List Token} {left : Option Delimiter}
    (read : (Pure.pure value : Reader α).Reads tokens found rest left) :
    tokens = rest ∧ ∀ other, (Pure.pure value : Reader α).Reads other found other left := by
  obtain ⟨rfl, rfl, rfl⟩ := reads_pure_iff.mp read
  exact ⟨rfl, fun other => reads_pure_iff.mpr ⟨rfl, rfl, rfl⟩⟩

/-- A value that is given takes no tokens. -/
theorem Takes.pure (value : α) : (Pure.pure value : Reader α).Takes Piece := by
  intro tokens found rest unread read _
  exact ⟨[], read.of_pure.1, .nil⟩

/-- A look at the next token takes none. -/
theorem Takes.next (sign : Sign) : (Reader.next sign).Takes Piece := by
  intro tokens found rest unread read _
  obtain ⟨-, rfl, -⟩ := reads_next_iff.mp read
  exact ⟨[], rfl, .nil⟩

/-- What is read behind a piece is taken with it. -/
theorem Takes.bind {next : α → Reader β} (first : reader.Takes Piece)
    (second : ∀ value, (next value).Takes form)
    (joins : ∀ {taken rest}, Piece taken → form rest → form (taken ++ rest)) :
    (reader >>= next).Takes form := by
  intro tokens value rest unread read closed
  obtain ⟨found, middle, earlier, later, started, ended, -⟩ := reads_bind_iff.mp read
  obtain ⟨taken, rfl, piece⟩ := first started closed
  rw [piece.nested_append_iff] at closed
  obtain ⟨behind, rfl, formed⟩ := second found ended closed
  exact ⟨taken ++ behind, (List.append_assoc ..).symm, joins piece formed⟩

/-- A character other than a comma is accepted as a piece. -/
theorem Takes.accept (punctuation : (Sign.ofMark char).isPunctuation) (other : char ≠ ',') :
    (Reader.accept (.ofMark char)).Takes Piece := by
  intro tokens found rest unread read _
  obtain ⟨⟨-, joint, rfl⟩ | ⟨-, rfl, -⟩, -⟩ := (reads_accept_ofMark_iff punctuation).mp read
  · refine ⟨[.mark char joint], rfl, .single rfl ?_⟩
    unfold Token.separates
    split
    · next same => exact absurd (Token.mark.inj same).1 other
    · rfl
  · exact ⟨[], rfl, .nil⟩

/-- A group is taken as a whole. -/
theorem Takes.within (delimiter : Delimiter) (inner : Reader α) :
    (Reader.within delimiter inner).Takes WholePiece := by
  intro tokens value rest unread read closed
  obtain ⟨behind, left, earlier, rfl, -, after, -⟩ := reads_within_iff.mp read
  obtain ⟨inside, later, rfl, ends, -⟩ := exists_closing_of_nested [] [] closed
  obtain rfl : later = rest := (inside_of_nested delimiter later ends).2.symm.trans after
  exact ⟨opening delimiter :: inside ++ [closing delimiter], by simp, .group ends⟩

/-- Repeated pieces are a piece. -/
theorem Takes.iterate {step : Reader Bool} (single : step.Takes Piece) :
    (Reader.iterate step).Takes Piece := by
  intro tokens
  induction size : tokens.length using Nat.strongRecOn generalizing tokens with
  | ind size hypothesis =>
    subst size
    rintro ⟨⟩ rest unread read closed
    obtain ⟨again, middle, earlier, stepped, behind⟩ := reads_iterate_iff.mp read
    obtain ⟨taken, rfl, piece⟩ := single stepped closed
    rw [piece.nested_append_iff] at closed
    split at behind
    · next goes =>
      obtain ⟨later, looped, -⟩ := behind
      obtain ⟨further, rfl, more⟩ := hypothesis _ goes.2 rfl looped closed
      exact ⟨taken ++ further, (List.append_assoc ..).symm, piece.append more⟩
    · obtain ⟨rfl, -⟩ := behind
      exact ⟨taken, rfl, piece⟩

end Reader

/-- Annotations are a piece, whatever stands between their brackets. -/
theorem Grammar.takes_annotationsOf (content : Reader Unit) :
    (annotationsOf content).Takes Piece := by
  have hash : (Sign.ofMark '#').isPunctuation := by decide
  have single : (Reader.accept (.ofMark '#') >>= fun found =>
      if found = true then Reader.within .bracket content >>= fun _ => pure true
      else pure false).Takes Piece := by
    apply Reader.Takes.bind (.accept hash (by decide)) _ Piece.append
    intro found
    cases found with
    | true =>
      refine Reader.Takes.bind ?_ (fun _ => .pure true) Piece.append
      intro tokens value rest unread read closed
      obtain ⟨taken, whole, group⟩ := Reader.Takes.within .bracket content read closed
      exact ⟨taken, whole, group.piece⟩
    | false => exact .pure false
  rw [annotationsOf_eq]
  exact .bind (.next _) (fun annotated => .bind (.iterate single) (fun _ => .pure annotated)
    Piece.append) Piece.append

/-- The annotations in front of an expression are a piece. -/
theorem Expression.takes_annotations : annotations.Takes Piece :=
  Grammar.takes_annotationsOf _

/-- What spells an end is a whole piece. -/
theorem End.Spells.exists_wholePiece {tokens rest : List Token} {value : End}
    {unread : Option Delimiter} (spells : Spells tokens value rest unread)
    (closed : nested [] tokens) : ∃ taken, tokens = taken ++ rest ∧ WholePiece taken := by
  cases spells with
  | @name name _ _ _ => exact ⟨[.word name], rfl, .single rfl rfl⟩
  | @literal number suffix _ _ _ =>
    exact ⟨[.literal (.integer number suffix)], rfl, .single rfl rfl⟩
  | @minus number suffix joint annotated behind _ _ annotations _ _ =>
    have minus : Piece [.mark '-' joint] := .single rfl rfl
    have closed : nested [] behind := minus.nested_append_iff.symm.trans closed
    obtain ⟨front, rfl, piece⟩ := Expression.takes_annotations annotations closed
    refine ⟨.mark '-' joint :: front ++ [.literal (.integer number suffix)], by simp, ?_⟩
    exact .append (minus.append piece) (.single rfl rfl)

/-- An end is taken as a whole piece. -/
theorem End.takes_read : End.read.Takes WholePiece := by
  intro tokens value rest unread read closed
  obtain ⟨annotated, middle, earlier, later, annotations, spells, -⟩ := reads_iff.mp read
  obtain ⟨front, rfl, piece⟩ := Expression.takes_annotations annotations closed
  obtain ⟨taken, rfl, whole⟩ := spells.exists_wholePiece (piece.nested_append_iff.symm.trans closed)
  exact ⟨front ++ taken, (List.append_assoc ..).symm, .append piece whole⟩

/-- A searcher is taken as a whole piece. -/
theorem takes_readSearcher : readSearcher.Takes WholePiece := by
  intro tokens searcher rest unread read _
  obtain ⟨name, rfl, -⟩ := reads_readSearcher_iff.mp read
  exact ⟨[.word ⟨false, name⟩], rfl, .single rfl rfl⟩

/-- A ceiling is taken as a whole piece. -/
theorem takes_readCeiling : readCeiling.Takes WholePiece := by
  intro tokens ceiling rest unread read _
  obtain ⟨rfl, -⟩ := reads_readCeiling_iff.mp read
  exact ⟨[.literal (.integer ceiling.value ceiling.suffix)], rfl, .single rfl rfl⟩

namespace Path

variable {tokens : List Token} {path : Path}

/-- A path is taken as a whole piece: words with separators between them. -/
theorem wholePiece_of_readMore {words : List Word} {later : Rest tokens}
    (read : readMore tokens = .ok (words, later)) (word : Word) :
    ∃ taken, tokens = taken ++ later.val ∧ WholePiece (.word word :: taken) := by
  fun_induction readMore tokens generalizing words word with
  | case1 second first rest hypothesis =>
    obtain ⟨⟨more, left⟩, found, read⟩ := exists_of_bind_eq_ok read
    cases read
    obtain ⟨taken, whole, piece⟩ := hypothesis found first
    refine ⟨[.mark ':' true, .mark ':' second] ++ .word first :: taken, by simp [whole], ?_⟩
    have front : Piece [.word word, .mark ':' true, .mark ':' second] :=
      .token rfl rfl (.token rfl rfl (.single rfl rfl))
    exact .append front piece
  | case2 second rest _ => cases read
  | case3 =>
    cases read
    exact ⟨[], rfl, .single rfl rfl⟩

/-- A path is taken as a whole piece. -/
theorem wholePiece_of_read {later : Later tokens} (found : Path.read tokens = .ok (path, later)) :
    ∃ taken, tokens = taken ++ later.val ∧ WholePiece taken := by
  unfold Path.read at found
  split at found
  · next first rest =>
    obtain ⟨⟨words, left⟩, more, found⟩ := exists_of_bind_eq_ok found
    cases found
    obtain ⟨taken, whole, piece⟩ := wholePiece_of_readMore more first
    exact ⟨.word first :: taken, by rw [List.cons_append, ← whole], piece⟩
  · next second first rest =>
    obtain ⟨⟨words, left⟩, more, found⟩ := exists_of_bind_eq_ok found
    cases found
    obtain ⟨taken, whole, piece⟩ := wholePiece_of_readMore more first
    refine ⟨[.mark ':' true, .mark ':' second] ++ .word first :: taken, by simp [whole], ?_⟩
    exact .append (.token rfl rfl (.single rfl rfl)) piece
  · cases found
  · cases found

end Path

/-! ## Items that take pieces -/

namespace Attribute

variable {Known : Type} {item : ItemReader Known} {known after final : Known}
  {tokens rest : List Token}

/-- What follows the path of an item is nothing or a whole piece that begins with no colon, and it
is read the same whatever follows its end. -/
def Apart (item : ItemReader Known) : Prop :=
  ∀ ⦃known path tokens after rest left⦄, (item known path).Reads tokens after rest left →
    ClosesItem rest → nested [] tokens →
      ∃ taken, tokens = taken ++ rest ∧ (taken = [] ∨ WholePiece taken) ∧
        (∀ joint, taken.head? ≠ some (.mark ':' joint)) ∧
        ∀ other, ClosesItem other → (item known path).Reads (taken ++ other) after other left

/-- An item takes this piece, whatever follows its end. -/
structure ReadsPiece (item : ItemReader Known) (known : Known) (taken : List Token)
    (after : Known) : Prop where
  /-- The piece is whole. -/
  whole : WholePiece taken
  /-- The item ends where the piece does. -/
  reads : ∀ rest, ClosesItem rest → ReadsItem item known (taken ++ rest) after rest none

/-- Items take these tokens piece by piece, with a comma behind each piece but perhaps the last. -/
inductive ReadsPieces (item : ItemReader Known) : Known → List Token → Known → Prop where
  /-- No items. -/
  | nil {known : Known} : ReadsPieces item known [] known
  /-- An item at the end. -/
  | last {known after : Known} {taken : List Token} (first : ReadsPiece item known taken after) :
      ReadsPieces item known taken after
  /-- An item in front of others, or of none. -/
  | cons {known after final : Known} {taken rest : List Token} {joint : Bool}
      (first : ReadsPiece item known taken after) (later : ReadsPieces item after rest final) :
      ReadsPieces item known (taken ++ .mark ',' joint :: rest) final

/-- The first item takes a piece. -/
theorem Apart.exists_readsPiece (apart : Apart item)
    (read : ReadsItem item known tokens after rest none) (closes : ClosesItem rest)
    (closed : nested [] tokens) :
    ∃ taken, tokens = taken ++ rest ∧ ReadsPiece item known taken after := by
  obtain ⟨path, later, found, read⟩ := read
  obtain ⟨words, begins, -, paths⟩ := Path.read_append found
  obtain ⟨others, same, whole⟩ := Path.wholePiece_of_read found
  obtain rfl : words = others := List.append_cancel_right (begins.symm.trans same)
  rw [begins, whole.piece.nested_append_iff] at closed
  obtain ⟨taken, ends, form, colon, again⟩ := apart read closes closed
  refine ⟨words ++ taken, begins.trans (by rw [List.append_assoc, ← ends]), ?_, ?_⟩
  · obtain rfl | behind := form
    · rwa [List.append_nil]
    · exact .append whole.piece behind
  · intro other closes_other
    -- No colon follows the path, so it is the same one in front of any end.
    have starts : ∀ joint, (taken ++ other).head? ≠ some (.mark ':' joint) := by
      intro joint
      match taken with
      | [] => exact closes_other.head?_ne rfl
      | first :: _ => exact colon joint
    obtain ⟨fewer, found_other⟩ := paths _ starts
    rw [List.append_assoc]
    exact ⟨path, _, found_other, again other closes_other⟩

/-- No items change nothing. -/
theorem ReadsItems.eq_of_nil (items : ReadsItems item known [] final) : known = final := by
  have read := readItems_eq_ok_iff.mpr items
  rw [readItems] at read
  exact Except.ok.inj read

/-- Where all groups end, items are read piece by piece. -/
theorem Apart.readsPieces (apart : Apart item) (items : ReadsItems item known tokens final)
    (closed : nested [] tokens) : ReadsPieces item known tokens final := by
  induction items with
  | nil => exact .nil
  | cons read closes later hypothesis =>
    obtain ⟨taken, rfl, first⟩ := apart.exists_readsPiece read closes closed
    obtain rfl | ⟨joint, further, rfl⟩ := closesItem_iff.mp closes
    · rw [List.append_nil]
      obtain rfl := later.eq_of_nil
      exact .last first
    · rw [first.whole.piece.nested_append_iff, nested_cons rfl] at closed
      exact .cons first (hypothesis closed)

/-- Items that take their tokens piece by piece are read. -/
theorem ReadsPieces.readsItems (items : ReadsPieces item known tokens final) :
    ReadsItems item known tokens final := by
  induction items with
  | nil => exact .nil
  | @last _ _ taken first =>
    have read := first.reads [] closesItem_nil
    rw [List.append_nil] at read
    exact .cons read closesItem_nil .nil
  | @cons _ _ _ _ rest joint first _ hypothesis =>
    exact .cons (first.reads _ (closesItem_cons joint rest)) (closesItem_cons joint rest) hypothesis

end Attribute

/-- What sets an option is a whole piece. -/
theorem Options.Sets.exists_wholePiece {options after : Options} {path : Path}
    {tokens rest : List Token} {left : Option Delimiter}
    (sets : options.Sets path tokens after rest left) (closed : nested [] tokens) :
    ∃ taken, tokens = taken ++ rest ∧ WholePiece taken := by
  cases sets with
  | bound _ _ read => exact End.takes_read read closed
  | searcher _ read => exact takes_readSearcher read closed
  | ceiling _ read => exact takes_readCeiling read closed

/-- What follows the path of an option is a whole piece. -/
theorem Options.apart_readItem : Attribute.Apart readItem := by
  intro options path tokens after rest left read closes closed
  obtain ⟨taken, whole, -, again⟩ := delimits_readItem.ends options path read closes
  obtain ⟨joint, behind, rfl, sets⟩ := reads_readItem_iff.mp read
  rw [nested_cons rfl] at closed
  obtain ⟨value, rfl, piece⟩ := sets.exists_wholePiece closed
  obtain rfl : .mark '=' joint :: value = taken := List.append_cancel_right whole
  exact ⟨_, whole, .inr (.append (.single rfl rfl) piece), by simp, again⟩

/-- Nothing follows the path of a marker. -/
theorem Markers.apart_readItem : Attribute.Apart readItem := by
  intro markers path tokens after rest left read _ _
  unfold readItem at read ⊢
  split at read
  · obtain ⟨rfl, again⟩ := read.of_pure
    exact ⟨[], rfl, .inl rfl, by simp, fun other _ => again other⟩
  · obtain ⟨rfl, again⟩ := read.of_pure
    exact ⟨[], rfl, .inl rfl, by simp, fun other _ => again other⟩
  · exact absurd read Reader.not_reads_fail

end EnumNames.Declaration
