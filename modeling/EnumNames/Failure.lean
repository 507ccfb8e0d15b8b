import EnumNames.Text.Slice
/-!
# Failures

A refusal is an answer: the caller asked for something that cannot be had and learns why. An abort
ends the whole evaluation, and only its wording is left. Whoever cannot go on after a refusal
insists on an answer, which turns the refusal into an abort. Every wording is here, and the law
says that the wording with the particulars begins with the wording without them.
-/
namespace EnumNames

/-- Why a name or a table cannot be had. -/
inductive Refusal where
  /-- A signature has no delimiter in front of a name. -/
  | unrecognizedSignature
  /-- A range has more values than may be probed. -/
  | tooWide (width ceiling : Nat)
  /-- A range ends where it starts or before. -/
  | emptyRange (start stop : Int)
  /-- Nothing says where the range starts. -/
  | missingStart
  /-- Nothing says where the range ends. -/
  | missingStop
  /-- A bound is not a value of the representation. -/
  | unrepresentable (value : Int)
  /-- A table was asked for with another length than the number of its names. -/
  | wrongLength (expected found : Nat)
  /-- Flag enumerations cannot be searched. -/
  | flagsUnsupported
deriving DecidableEq, Repr

namespace Refusal

/-- The wording without particulars. -/
def message : Refusal → String
  | unrecognizedSignature => "unrecognized signature: no enumerator delimiter found"
  | tooWide _ _ =>
    "scan width exceeds the maximum search size; raise `max_search_size` for this enum " ++
      "or set STRENUM_MAX_SEARCH_SIZE"
  | emptyRange _ _ => "the end value must be larger than begin"
  | missingStart => "no begin bound: pass `begin` or mark a variant with #[strenum(begin)]"
  | missingStop => "no end bound: pass `end` or mark a variant with #[strenum(end)]"
  | unrepresentable _ => "bound does not fit the enum's representation"
  | wrongLength _ _ => "searcher result does not match the counted table length"
  | flagsUnsupported => "the bitflag searcher is not implemented"

/-- The particulars of a refusal in parentheses, where it has any. -/
def particulars : Refusal → String
  | tooWide width ceiling => s!" (width {width}, max {ceiling})"
  | emptyRange start stop => s!" (begin {start}, end {stop})"
  | unrepresentable value => s!" (value {value})"
  | wrongLength expected found => s!" (expected {expected}, found {found})"
  | unrecognizedSignature | missingStart | missingStop | flagsUnsupported => ""

/-- The wording with the particulars. -/
def display (refusal : Refusal) : String := refusal.message ++ refusal.particulars

/-- The wording with the particulars begins with the wording without them. -/
theorem bytes_message_isPrefix_display (refusal : Refusal) :
    Text.bytes refusal.message <+: Text.bytes refusal.display := by
  rw [display, Text.bytes_append]
  exact List.prefix_append _ _

end Refusal

/-- Why an evaluation ended without an answer. -/
inductive Abort where
  /-- An answer was insisted on and refused. -/
  | refused (refusal : Refusal)
  /-- A part outside a text was asked for. -/
  | text (fault : Text.Fault)
  /-- The signature of a value is longer than the room for it. -/
  | overCapacity
  /-- The signature of a value that no enumerator has reads as that of an enumerator. -/
  | integerNamed
deriving DecidableEq, Repr

/-- The wording of an abort. -/
def Abort.message : Abort → String
  | .refused refusal => refusal.message
  | .text fault => fault.message
  | .overCapacity => "rendered signature exceeds its capacity"
  | .integerNamed => "an integer rendering parsed as an enumerator name"

/-- What stands in place of an answer: a refusal, or an abort. -/
inductive Failure where
  /-- The answer is refused, and the caller goes on. -/
  | refusal (refusal : Refusal)
  /-- The evaluation has ended. -/
  | abort (abort : Abort)
deriving DecidableEq, Repr

/-- The abort that a failure becomes for a caller who insists on an answer. -/
def Failure.toAbort : Failure → Abort
  | .refusal cause => .refused cause
  | .abort cause => cause

variable {α : Type}

/-- An answer that is insisted on: what failed has ended the evaluation. -/
def insist (answer : Except Failure α) : Except Abort α := answer.mapError Failure.toAbort

/-- An answer that can only be refused, insisted on. -/
def insistOn (answer : Except Refusal α) : Except Abort α := answer.mapError .refused

end EnumNames
