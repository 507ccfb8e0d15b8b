import EnumNames.Declaration.Lexer
import EnumNames.Declaration.Reader
/-!
# Attributes

An attribute is a path and, for the attributes that are read here, a list of items in a group
after it. Items are separated by commas, and one comma may follow the last of them. Each begins
with a path; what may follow the path is up to the reader of the item, who leaves the tokens
after it. Attributes of one name are read in their order, as one list would be.
-/
namespace EnumNames.Declaration

/-- A path of words, which may begin with a separator. -/
structure Path where
  /-- Whether the path begins with a separator. -/
  leading : Bool
  /-- The segments in order. -/
  segments : List Word
deriving DecidableEq, Repr

namespace Path

/-- The word that is all of the path, if it is written plainly. -/
def name? : Path → Option String
  | ⟨false, [⟨false, plain⟩]⟩ => some plain
  | _ => none

/-- The segments that go on with a path, each after a separator. -/
def readMore : (tokens : List Token) → Except Fault (List Word × Rest tokens)
  | .mark ':' true :: .mark ':' _ :: .word word :: rest => do
    let (words, ⟨later, _⟩) ← readMore rest
    return (word :: words, ⟨later, by simp only [List.length_cons]; omega⟩)
  | .mark ':' true :: .mark ':' _ :: rest => .error (.expected .segment rest.isEmpty)
  | tokens => .ok ([], .all tokens)

/-- What stands in place of a path. -/
def missing : List Token → Fault
  | .literal _ :: _ => .literalForItem
  | .mark '-' _ :: .literal literal :: _ =>
    if literal.isNumber then .literalForItem else .tokenForItem
  | [] => .expected .item true
  | _ => .tokenForItem

/-- The path at the front of the tokens. Every word can be a segment, keywords included. -/
def read (tokens : List Token) : Except Fault (Path × Later tokens) :=
  match tokens with
  | .word first :: rest => do
    let (words, ⟨later, _⟩) ← readMore rest
    return (⟨false, first :: words⟩, ⟨later, by simp only [List.length_cons]; omega⟩)
  | .mark ':' true :: .mark ':' _ :: .word first :: rest => do
    let (words, ⟨later, _⟩) ← readMore rest
    return (⟨true, first :: words⟩, ⟨later, by simp only [List.length_cons]; omega⟩)
  | .mark ':' true :: .mark ':' _ :: rest => .error (missing rest)
  | tokens => .error (missing tokens)

end Path

/-- What follows the path of an attribute. -/
inductive Arguments where
  /-- Nothing. -/
  | absent
  /-- A value after an equality sign. -/
  | value
  /-- The tokens of a group, without its delimiters. -/
  | list (tokens : List Token)
deriving DecidableEq, Repr

/-- An attribute. -/
structure Attribute where
  /-- The path in front. -/
  path : Path
  /-- What follows the path. -/
  arguments : Arguments
deriving DecidableEq, Repr

namespace Attribute

/-- The attribute with these tokens. -/
def ofTokens? (tokens : List Token) : Option Attribute :=
  match Path.read tokens with
  | .error _ => none
  | .ok (path, ⟨[], _⟩) => some ⟨path, .absent⟩
  | .ok (path, ⟨.mark '=' _ :: _, _⟩) => some ⟨path, .value⟩
  -- Nothing follows the group, so its closing delimiter is the last token.
  | .ok (path, ⟨.opening _ :: rest, _⟩) => some ⟨path, .list rest.dropLast⟩
  | .ok _ => none

/-- The attribute with this text. -/
def ofText? (text : String) : Option Attribute := Token.ofText? text >>= ofTokens?

/-- The items of an attribute with this name. -/
def items (name : String) (given : Attribute) : Except Fault (List Token) :=
  match given.arguments with
  | .list tokens => .ok tokens
  | .absent => .error (.noArguments name)
  | .value => .error (.valueForArguments name)

/-- Reads what follows the path of one item into what is known, and leaves the other tokens. -/
abbrev ItemReader (Known : Type) := Known → Path → Reader Known

/-- What is known after a list of items. A group that was left before its end is a fault once
nothing else is wrong with the list. -/
def readItems {Known : Type} (item : ItemReader Known) (unread : Option Delimiter)
    (known : Known) : (tokens : List Token) → Except Fault Known
  | [] =>
    match unread with
    | none => .ok known
    | some delimiter => .error (.flawed (.unread delimiter))
  | first :: rest => do
    let (path, ⟨afterPath, _⟩) ← Path.read (first :: rest)
    let ⟨known, ⟨afterItem, _⟩, left⟩ ← item known path afterPath
    match _ : afterItem with
    | [] => readItems item (unread.or left) known []
    | .mark ',' _ :: later => readItems item (unread.or left) known later
    | _ => throw (.expectedMark ",")
termination_by tokens => tokens.length
decreasing_by all_goals subst_vars; simp only [List.length_cons, List.length_nil] at *; omega

/-- What is known after the attributes of one name. The first fault ends the reading. -/
def readAll {Known : Type} (name : String) (item : ItemReader Known) (known : Known)
    (attributes : List Attribute) : Except Fault Known :=
  (attributes.filter fun given => given.path.name? = some name).foldlM
    (fun known given => do readItems item none known (← given.items name)) known

end Attribute

end EnumNames.Declaration
