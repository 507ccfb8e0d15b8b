import EnumNames.Declaration.Token
/-!
# Operators

The operators that can stand between two operands, and whether the tokens after an operand go on
with it. An operator of several characters is one only if each of them but the last is directly
followed by the next.
-/
namespace EnumNames.Declaration

/-- How tightly an operator binds its operands, the loosest first. -/
inductive Level where
  | jump
  | assignment
  | range
  | or
  | and
  | comparison
  | bitOr
  | bitXor
  | bitAnd
  | shift
  | sum
  | product
  | conversion
deriving DecidableEq, Repr

/-- The place of a level in their order. -/
def Level.rank : Level → Nat
  | jump => 0
  | assignment => 1
  | range => 2
  | or => 3
  | and => 4
  | comparison => 5
  | bitOr => 6
  | bitXor => 7
  | bitAnd => 8
  | shift => 9
  | sum => 10
  | product => 11
  | conversion => 12

/-- The level of an operator of one character. -/
def level? : Char → Option Level
  | '+' | '-' => some .sum
  | '*' | '/' | '%' => some .product
  | '^' => some .bitXor
  | '&' => some .bitAnd
  | '|' => some .bitOr
  | '<' | '>' => some .comparison
  | _ => none

/-- The level of an operator of two characters. -/
def levelOfPair? : Char → Char → Option Level
  | '=', '=' | '<', '=' | '>', '=' | '!', '=' => some .comparison
  | '+', '=' | '-', '=' | '*', '=' | '/', '=' | '%', '=' => some .assignment
  | '^', '=' | '&', '=' | '|', '=' => some .assignment
  | '&', '&' => some .and
  | '|', '|' => some .or
  | '<', '<' | '>', '>' => some .shift
  | _, _ => none

/-- The operator between two operands in front of the tokens, and the number of tokens it takes,
as many as it can. A single equality sign is none of these. -/
def operator? : List Token → Option (Level × Nat)
  | .mark '<' true :: .mark '<' true :: .mark '=' _ :: _
  | .mark '>' true :: .mark '>' true :: .mark '=' _ :: _ => some (.assignment, 3)
  | .mark first true :: .mark second _ :: _ =>
    match levelOfPair? first second with
    | some level => some (level, 2)
    | none => (level? first).map (·, 1)
  | .mark first _ :: _ => (level? first).map (·, 1)
  | _ => none

/-- Whether an equality sign begins here that is not the arrow of a match. -/
def assigns : List Token → Bool
  | .mark '=' true :: .mark '>' _ :: _ => false
  | .mark '=' _ :: _ => true
  | _ => false

/-- The level of what goes on with an operand here. What does not go on with it has the loosest. -/
def levelHere (tokens : List Token) : Level :=
  match operator? tokens with
  | some (level, _) => level
  | none =>
    if assigns tokens then .assignment
    else
      match tokens with
      | .mark '.' true :: .mark '.' _ :: _ => .range
      | .word ⟨false, "as"⟩ :: _ => .conversion
      | _ => .jump

/-- Whether an operand that ends here goes on: as the callee of a call, the value of an access, the
operand of an operator, or the start of a range. -/
def continuesOperand : List Token → Bool
  | .opening .parenthesis :: _ | .opening .bracket :: _ => true
  | .mark '.' _ :: _ | .mark '?' _ :: _ => true
  | tokens => levelHere tokens != .jump

/-- Whether a path that ends here goes on, also with a further segment, as the name of a macro, or
as the type of a value with fields. -/
def continuesPath : List Token → Bool
  | .opening .brace :: _ | .mark '!' _ :: _ => true
  | .mark ':' true :: .mark ':' _ :: .opening .parenthesis :: _ => false
  | .mark ':' true :: .mark ':' _ :: _ => true
  | tokens => continuesOperand tokens

/-- Whether a name that ends here goes on: as a path does, or as one of the forms that are built
into the language. -/
def continuesName (name : Word) (tokens : List Token) : Bool :=
  continuesPath tokens ||
    match name, tokens with
    | ⟨false, "builtin"⟩, .mark '#' _ :: _ => true
    | _, _ => false

end EnumNames.Declaration
