import EnumNames.Declaration.Operator
import EnumNames.Declaration.Reader
/-!
# Nested parts

The parts of a declaration contain each other: an expression can hold types, patterns and
statements, and each of these can hold expressions. The readers of one kind of part are given the
readers of the parts nested in it. They ask for one of them only after taking a token, so that as
many levels as there are tokens are enough.
-/
namespace EnumNames.Declaration.Grammar

/-- Where an expression stands. -/
inductive Setting where
  /-- Where a brace behind a path begins the fields of a value. -/
  | free
  /-- In front of a block, where a brace begins that block. -/
  | condition
deriving DecidableEq, Repr

/-- Where a type stands. -/
inductive Place where
  /-- Where a type can be a sum of bounds. -/
  | whole
  /-- Where a plus sign does not belong to the type. -/
  | single
  /-- Behind `as`, where neither a plus sign nor a group behind a name belongs to the type. -/
  | conversion
deriving DecidableEq, Repr

/-- What an expression is, seen from outside. -/
inductive Shape where
  /-- A path that does not begin with a type between angle brackets. -/
  | path
  /-- A minus sign and its operand. -/
  | negation
  /-- A range. -/
  | range
  /-- A comparison. -/
  | comparison
  /-- A form that ends with a block and needs nothing between it and a next one. -/
  | block
  /-- An invocation of a macro, and whether its arguments stand in braces. -/
  | invocation (braced : Bool)
  /-- Anything else. -/
  | other
deriving DecidableEq, Repr

/-- What a type is, seen from outside. -/
inductive TypeShape where
  /-- One name, which may have arguments in angle brackets. -/
  | name
  /-- Another path. -/
  | path
  /-- One bound. -/
  | bound
  /-- A type in parentheses. -/
  | parenthesized
  /-- Anything else. -/
  | other
deriving DecidableEq, Repr

/-- What a pattern is, seen from outside. -/
inductive PatternShape where
  /-- What stands for the other elements. -/
  | others
  /-- A range without one of its ends. -/
  | openRange
  /-- Anything else. -/
  | other
deriving DecidableEq, Repr

/-- What a bound is, seen from outside. -/
inductive BoundShape where
  /-- A trait. -/
  | trait
  /-- A lifetime. -/
  | lifetime
  /-- The captures of a hidden type. -/
  | captures
deriving DecidableEq, Repr

/-- The readers of the parts that are nested in another one. -/
structure Nested where
  /-- An expression. -/
  expression : Setting → Reader Shape
  /-- An operand with the operators in front of it and what follows it. -/
  operand : Setting → Reader Shape
  /-- An expression that ends behind a block in front of it. -/
  leading : Reader Shape
  /-- The right side of an operator of a level. -/
  right : Setting → Level → Reader Shape
  /-- A type. -/
  type : Place → Reader TypeShape
  /-- A bound, which may be for constants alone or captures where these are allowed. -/
  bound : (captures constants : Bool) → Reader BoundShape
  /-- A pattern without alternatives. -/
  pattern : Reader PatternShape
  /-- The statements of a block. -/
  statements : Reader Unit
  /-- A definition. -/
  definition : Reader Unit
  /-- A tree of imported names, which may begin at the root. -/
  imports : (rooted : Bool) → Reader Unit
  /-- Fields with names, between braces. -/
  fields : Reader Unit

namespace Nested

/-- No part can be nested any deeper. -/
def deepest : Nested where
  expression _ := .missing .expression
  operand _ := .missing .expression
  leading := .missing .expression
  right _ _ := .missing .expression
  type _ := .missing .expression
  bound _ _ := .missing .expression
  pattern := .missing .expression
  statements := .missing .expression
  definition := .missing .expression
  imports _ := .missing .expression
  fields := .missing .expression

end Nested

end EnumNames.Declaration.Grammar
