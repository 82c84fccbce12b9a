import Reckoner.FunctionTable
import Reckoner.Operator
import Reckoner.Decimal.Numeral

/-!
# Expressions

An expression is a tree of numbers, variables, calls, brackets, signs, binary operators and
assignments.  Each node keeps the position it has in the text; a variable keeps its name and the
slot it had when the expression was read.  A `Sequence` is one or more expressions with commas
between them, of which the last one gives the result.
-/

set_option autoImplicit false

namespace Reckoner

/-- A name in an expression that stands for a variable. -/
structure Reference where
  name : String
  slot : Nat
  position : Nat
  deriving DecidableEq, Repr, Inhabited

/-- An expression. -/
inductive Expr where
  /-- A numeral. -/
  | number (numeral : List Char) (position : Nat)
  /-- The value of a variable. -/
  | name (reference : Reference)
  /-- A call of a function; the position is that of its name. -/
  | call (function : Function) (position : Nat) (arguments : List Expr)
  /-- An expression in brackets. -/
  | group (position : Nat) (inner : Expr)
  /-- A minus sign. -/
  | negate (position : Nat) (operand : Expr)
  /-- A binary operator. -/
  | binary (op : Operator) (position : Nat) (left right : Expr)
  /-- An assignment to a variable. -/
  | assign (target : Reference) (value : Expr)
  deriving Inhabited

namespace Expr

/-- The position of the first token of an expression. -/
def start : Expr → Nat
  | number _ position => position
  | name reference => reference.position
  | call _ position _ => position
  | group position _ => position
  | negate position _ => position
  | binary _ _ left _ => left.start
  | assign target _ => target.position

mutual

/-- The variable that an expression is, if it is nothing but a variable.  Brackets do not matter,
nor do signs that cancel each other. -/
def target? : Expr → Option Reference
  | name reference => some reference
  | group _ inner => inner.target?
  | negate _ operand => operand.negatedTarget?
  | _ => none

/-- The variable that an expression is the negative of. -/
def negatedTarget? : Expr → Option Reference
  | group _ inner => inner.negatedTarget?
  | negate _ operand => operand.target?
  | _ => none

end

/-- The value of a numeral. -/
def numberValue (numeral : List Char) : Value := .scalar (Decimal.numeralFloat numeral)

end Expr

/-- A statement that is not the last one, and the position of the comma behind it. -/
structure Finished where
  statement : Expr
  comma : Nat
  deriving Inhabited

/-- Statements with commas between them. -/
structure Sequence where
  finished : List Finished
  last : Expr
  deriving Inhabited

end Reckoner
