import EnumNames.Declaration.Sign
/-!
# Flaws

What can be wrong with a part of a declaration although no token is missing, and the wording of
each flaw.
-/
namespace EnumNames.Declaration

/-- What can follow a conversion only behind parentheses. -/
inductive Continuation where
  | waiting
  | method
  | field
  | question
  | index
  | call
deriving DecidableEq, Repr

/-- The wording of a continuation. -/
def Continuation.wording : Continuation → String
  | waiting => "`.await`"
  | method => "a method call"
  | field => "a field access"
  | question => "`?`"
  | index => "indexing"
  | call => "a function call"

/-- What is wrong with a part although no token is missing. -/
inductive Flaw where
  /-- A group has tokens behind its last part. -/
  | unread (delimiter : Delimiter)
  /-- The value of an annotation begins with an annotation. -/
  | annotationInside
  /-- A range without a start is annotated. -/
  | annotatedRange
  /-- A comparison is compared. -/
  | chainedComparison
  /-- A conversion goes on as if it were an operand. -/
  | continuedConversion (continuation : Continuation)
  /-- The index of a field has a suffix. -/
  | suffixedIndex
  /-- The operand of a jump has a label. -/
  | labelledOperand
  /-- A statement follows another one without a semicolon between. -/
  | unseparatedStatement
  /-- A range without both of its ends is an element of a slice. -/
  | openRangeInSlice
  /-- An object type has lifetimes alone. -/
  | noTraitOfObject
  /-- A hidden type has neither a trait nor anything that counts as one. -/
  | noTrait
  /-- Captures stand among the bounds of something that captures nothing. -/
  | misplacedCaptures
  /-- A bound that holds of constants alone does not stand here. -/
  | misplacedConstant (bracketed : Bool)
  /-- A bound is relaxed for bound lifetimes. -/
  | relaxedBinder
  /-- A condition begins with parameters. -/
  | conditionWithParameters
  /-- A receiver is not the first parameter. -/
  | lateReceiver
  /-- There are two receivers. -/
  | secondReceiver
  /-- An implementation without a trait is negative. -/
  | negativeImplementation
deriving DecidableEq, Repr

/-- The wording of a flaw. -/
def Flaw.message : Flaw → String
  | unread delimiter => "unexpected token, expected `" ++ delimiter.closing ++ "`"
  | annotationInside => "unexpected attribute inside of attribute"
  | annotatedRange => "attributes are not allowed on range expressions starting with `..`"
  | chainedComparison => "comparison operators cannot be chained"
  | continuedConversion continuation => "casts cannot be followed by " ++ continuation.wording
  | suffixedIndex => "expected unsuffixed integer"
  | labelledOperand => "parentheses required"
  | unseparatedStatement => "unexpected token, expected `;`"
  | openRangeInSlice =>
    "range pattern is not allowed unparenthesized inside slice pattern"
  | noTraitOfObject => "at least one trait is required for an object type"
  | noTrait => "at least one trait must be specified"
  | misplacedCaptures => "`use<...>` precise capturing syntax is not allowed here"
  | misplacedConstant bracketed =>
    (if bracketed then "`[const]`" else "`const`") ++ " is not allowed here"
  | relaxedBinder => "`for<...>` binder not allowed with `?` trait polarity modifier"
  | conditionWithParameters =>
    "generic parameters on `where` clauses are reserved for future use"
  | lateReceiver => "unexpected method receiver"
  | secondReceiver => "unexpected second method receiver"
  | negativeImplementation => "inherent impls cannot be negative"

end EnumNames.Declaration
