import Reckoner.Builtin
import Reckoner.Environment.Basic
import Reckoner.Operator.Meaning
import Reckoner.Program.Basic

/-!
# Running programs

* `Operation.step` does one operation on a stack and an environment.  The top of the stack is the
  head of the list.  An operation that fails changes nothing.
* `Code.run` does one instruction after the other.  A run that fails keeps what was assigned before,
  and its fault tells the position of the instruction that failed.
* A run is complete if it leaves exactly one value.

Code that was not compiled from an expression can ask for more than there is.  A call takes what it
finds on the stack, up to its number of arguments, and a negative number of arguments means all
values but so many at the bottom; a negative code counts from the end of the function table.
-/

set_option autoImplicit false

namespace Reckoner

/-- A stack of values, the top first. -/
abbrev Stack := List Value

/-- How many values a call takes from a stack of the given depth. -/
def argumentCount (depth : Nat) (arity : Int) : Nat :=
  if 0 ≤ arity then arity.toNat else depth - arity.natAbs

/-- The function of a code. -/
def functionAt? (functions : List Builtin) (code : Int) : Option Builtin :=
  if 0 ≤ code then functions[code.toNat]?
  else if code.natAbs ≤ functions.length then functions[functions.length - code.natAbs]?
  else none

/-- Replaces the arguments of a function by its value. -/
def callStep (functions : List Builtin) (code arity : Int) (stack : Stack) :
    Except Fault Stack :=
  let count := argumentCount stack.length arity
  match functionAt? functions code with
  | some function => do
    let value ← function.apply (stack.take count).reverse
    return value :: stack.drop count
  | none => .error .outOfBounds

namespace Operation

/-- Does one operation. -/
def step (functions : List Builtin) (operation : Operation) (stack : Stack) (env : Environment) :
    Except Fault (Stack × Environment) :=
  match operation, stack with
  | constant value, stack => .ok (value :: stack, env)
  | load slot, stack =>
    match env.load slot with
    | some (value, env) => .ok (value :: stack, env)
    | none => .error (.ofCause (.retiredSlot slot))
  | store slot, value :: stack =>
    match env.storeSlot slot value with
    | some env => .ok (value :: stack, env)
    | none => .error (.ofCause (.retiredSlot slot))
  | discard, _ :: stack => .ok (stack, env)
  | binary op, b :: a :: stack =>
    match op.apply a b with
    | .ok value => .ok (value :: stack, env)
    | .error cause => .error (.ofCause cause)
  | negate, a :: stack =>
    match a.negate with
    | .ok value => .ok (value :: stack, env)
    | .error cause => .error (.ofCause cause)
  | call code arity, stack => (callStep functions code arity stack).map (·, env)
  | blank, _ => .error .blankConstant
  | unassigned code, _ => .error (.ofCause (.unassignedCode code))
  | beyond, _ => .error .outOfBounds
  | store _, [] | discard, [] | binary _, [] | binary _, [_] | negate, [] =>
    .error .outOfBounds

end Operation

/-- The result of a run that did all its instructions. -/
def Stack.result : Stack → Except Fault Value
  | [value] => .ok value
  | stack => .error (.ofCause (.valuesLeft stack.length))

/-- Runs code on a stack and an environment. -/
def Code.run (functions : List Builtin) : Code → Stack → Environment →
    Except Fault Value × Environment
  | [], stack, env => (Stack.result stack, env)
  | i :: code, stack, env =>
    match i.operation.step functions stack env with
    | .ok (stack, env) => Code.run functions code stack env
    | .error fault => (.error (fault.atPosition i.position), env)

/-- Runs a program on an environment, from an empty stack. -/
def Program.run (functions : List Builtin) (p : Program) (env : Environment) :
    Except Fault Value × Environment :=
  Code.run functions p.code [] env

end Reckoner
