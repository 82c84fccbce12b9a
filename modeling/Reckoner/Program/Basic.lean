import Reckoner.FunctionTable
import Reckoner.Operator
import Reckoner.Value.Basic

/-!
# Programs

A program is a list of instructions for a stack of values, without jumps.  Each instruction carries
the position in the expression that it stands for.

* `Operation.effect` is the change of the stack's depth.
* `Program.slots` are the slots of the variables that a program reads or writes.
-/

set_option autoImplicit false

namespace Reckoner

/-- What an instruction does. -/
inductive Operation where
  /-- Pushes a constant. -/
  | constant (value : Value)
  /-- Pushes the value of a variable. -/
  | load (slot : Int)
  /-- Gives a variable the value on top, and leaves that where it is. -/
  | store (slot : Int)
  /-- Drops the value on top. -/
  | discard
  /-- Replaces two values by one. -/
  | binary (op : Operator)
  /-- Changes the sign of the value on top. -/
  | negate
  /-- Replaces the arguments of a function by its value. -/
  | call (code : Int) (arity : Int)
  /-- Pushes a constant that is missing. -/
  | blank
  /-- A code without an operation. -/
  | unassigned (code : Int)
  /-- A code beyond the table of operations. -/
  | beyond
  deriving DecidableEq, Inhabited

/-- The change of the stack's depth. -/
def Operation.effect : Operation → Int
  | constant _ | load _ | blank => 1
  | discard | binary _ => -1
  | call _ arity => 1 - arity
  | store _ | negate | unassigned _ | beyond => 0

/-- An operation and the position it stands for. -/
structure Instruction where
  operation : Operation
  position : Int
  deriving DecidableEq, Inhabited

/-- A list of instructions. -/
abbrev Code := List Instruction

/-- The code of an expression, with the text it comes from and the greatest depth of the stack. -/
structure Program where
  source : String
  code : Code
  maxStack : Nat
  deriving DecidableEq, Inhabited

/-- The slot of the variable that an operation reads or writes. -/
def Operation.slot? : Operation → Option Int
  | load slot | store slot => some slot
  | _ => none

namespace Program

/-- The number of instructions. -/
def size (p : Program) : Nat := p.code.length

/-- The slots of the variables that a program reads or writes, in order. -/
def slots (p : Program) : List Int :=
  ((p.code.filterMap (·.operation.slot?)).eraseDups).mergeSort fun a b => decide (a ≤ b)

end Program

end Reckoner
