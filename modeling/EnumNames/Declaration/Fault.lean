import EnumNames.Declaration.Flaw
/-!
# Faults of declarations

What can be wrong with a declaration, and the wording of each fault. Where something is expected
and nothing is left, the wording says so in front.
-/
namespace EnumNames.Declaration

/-- One of the two ends of the range of a table. -/
inductive Side where
  | lower
  | upper
deriving DecidableEq, Repr

/-- The word for an end in options and on marked variants. -/
def Side.word : Side → String
  | lower => "begin"
  | upper => "end"

/-- What a place in a declaration asks for. -/
inductive Expectation where
  /-- One of these signs. -/
  | signs (signs : List Sign)
  /-- An item of a list of options. -/
  | item
  /-- A further segment of the path of an item. -/
  | segment
  /-- A further segment of the path of an annotation. -/
  | furtherSegment
  /-- An integer literal. -/
  | integer
  /-- An expression. -/
  | expression
  /-- The member of a value. -/
  | member
  /-- The group after the name of a macro. -/
  | group
  /-- What a label can stand in front of. -/
  | labelled
  /-- The end of a range that includes it. -/
  | upperBound
  /-- Another name for something imported. -/
  | importedName
deriving DecidableEq, Repr

/-- The wording of what is asked for. -/
def Expectation.wording : Expectation → String
  | signs [first, second] => first.wording ++ " or " ++ second.wording
  | signs [sign] => sign.wording
  | signs several => "one of: " ++ ", ".intercalate (several.map Sign.wording)
  | item => "nested attribute"
  | segment => "ident"
  | furtherSegment => "path segment after `::`"
  | integer => "integer literal"
  | expression => "an expression"
  | member => "identifier or integer"
  | group => "delimiter"
  | labelled => "loop or block expression"
  | upperBound => "range upper bound"
  | importedName => "identifier or underscore"

/-- What is wrong with a declaration. -/
inductive Fault where
  /-- Something else than an enumeration is declared. -/
  | notEnumeration
  /-- The type has parameters. -/
  | parameterized
  /-- A variant carries fields. -/
  | hasFields
  /-- A second variant is marked as the same end. -/
  | markedTwice (side : Side)
  /-- An end is given by a word that no variant of the type has. -/
  | noSuchVariant (variant type : Word)
  /-- An end is given twice. -/
  | givenTwice (side : Side)
  /-- The enumeration has no such option. -/
  | unknownOption
  /-- A variant has no such marker. -/
  | unknownMarker
  /-- There is no such searcher. -/
  | unknownSearcher
  /-- The unsigned type of 128 bits is asked for. -/
  | unsupportedRepresentation
  /-- An attribute has no list of options. -/
  | noArguments (name : String)
  /-- An attribute has a value in place of a list of options. -/
  | valueForArguments (name : String)
  /-- A literal stands in place of an item. -/
  | literalForItem
  /-- Punctuation, a lifetime or a group stands in place of an item. -/
  | tokenForItem
  /-- Something else stands here than what is asked for, or nothing is left. -/
  | expected (expectation : Expectation) (atEnd : Bool)
  /-- This punctuation does not stand here. -/
  | expectedMark (mark : String)
  /-- A keyword stands in place of an identifier. -/
  | keyword (word : String)
  /-- An integer is too large for what it is used for. -/
  | tooLarge
  /-- A negative integer stands where none can be. -/
  | negative
  /-- A path of several segments stands in place of the name of a variant. -/
  | notVariantName
  /-- A minus sign stands in front of something that is no integer literal. -/
  | notInteger
  /-- An expression is neither the name of a variant nor an integer literal. -/
  | notBound
  /-- No token can stand here, or no tokens are left. -/
  | unexpected (atEnd : Bool)
  /-- A part has a flaw. -/
  | flawed (flaw : Flaw)
deriving DecidableEq, Repr

/-- The wording of a fault. -/
def Fault.message : Fault → String
  | notEnumeration => "Strenum can only be derived for enums"
  | parameterized => "Strenum cannot be derived for generic enums"
  | hasFields => "Strenum can only be derived for fieldless enums"
  | markedTwice side => s!"only one variant can be marked #[strenum({side.word})]"
  | noSuchVariant variant type => s!"`{variant.written}` is not a variant of `{type.written}`"
  | givenTwice side => s!"duplicate `{side.word}` option"
  | unknownOption => "unknown strenum option"
  | unknownMarker => "expected `begin` or `end`"
  | unknownSearcher => "searcher must be `Sequential` or `Bitflag`"
  | unsupportedRepresentation => "`u128` representations are not supported by Strenum"
  | noArguments name => s!"expected attribute arguments in parentheses: #[{name}(...)]"
  | valueForArguments name => s!"expected parentheses: #[{name}(...)]"
  | literalForItem => "unexpected literal in nested attribute, expected ident"
  | tokenForItem => "unexpected token in nested attribute, expected ident"
  | expected expectation atEnd =>
    (if atEnd then "unexpected end of input, " else "") ++ "expected " ++ expectation.wording
  | expectedMark mark => s!"expected `{mark}`"
  | keyword word => s!"expected identifier, found keyword `{word}`"
  | tooLarge => "number too large to fit in target type"
  | negative => "invalid digit found in string"
  | notVariantName => "expected a variant name"
  | notInteger => "expected an integer literal"
  | notBound => "expected a variant name or an integer literal"
  | unexpected atEnd => if atEnd then "unexpected end of input" else "unexpected token"
  | flawed flaw => flaw.message

end EnumNames.Declaration
