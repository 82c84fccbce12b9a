import Reckoner.Operator
import Reckoner.Report
import Reckoner.Value.Basic

/-!
# Evaluation errors

* `EvalCause` lists the reasons for which an operator, a function or an instruction fails, each with
  its kind and report.
* `Fault` is the end of a run that does not succeed: an evaluation error with the place it is known
  for, or a step that only code written by hand can take.
-/

set_option autoImplicit false

namespace Reckoner

/-- Why an evaluation fails. -/
inductive EvalCause where
  /-- A scalar divisor is zero. -/
  | divisionByZero
  /-- A component of a vector divisor is zero. -/
  | zeroComponent (divisor : Vec3)
  /-- The whole part of the divisor of a remainder is zero. -/
  | moduloByZero
  /-- Zero does not have a negative power. -/
  | zeroPower (exponent : Float)
  /-- Zero has no inverse. -/
  | inverseOfZero
  /-- A remainder needs finite operands. -/
  | moduloNotFinite (a b : Float)
  /-- A negative number has only whole powers. -/
  | negativeBase (base exponent : Float)
  /-- A power is beyond all floats. -/
  | powerOutOfRange (base exponent : Float)
  /-- A function is not defined at its argument. -/
  | outsideDomain (function : String) (x : Float)
  /-- A function's result is beyond all floats. -/
  | outOfRange (function : String) (x : Float)
  /-- An operator does not take operands of these kinds. -/
  | operands (op : Operator) (left right : Kind)
  /-- A value of this kind has no negative. -/
  | noNegative (kind : Kind)
  /-- A function takes an argument of another kind. -/
  | argument (function : String) (wanted got : Kind)
  /-- No variable owns the slot. -/
  | retiredSlot (slot : Int)
  /-- No operation belongs to the code. -/
  | unassignedCode (code : Int)
  /-- A run ends with exactly one value. -/
  | valuesLeft (count : Nat)
  deriving DecidableEq, Inhabited

namespace EvalCause

/-- The kind of error. -/
def kind : EvalCause → ErrorKind
  | divisionByZero | zeroComponent _ | moduloByZero | zeroPower _ | inverseOfZero => .divideByZero
  | moduloNotFinite .. | negativeBase .. | powerOutOfRange .. | outsideDomain .. | outOfRange .. =>
    .numericDomain
  | operands .. | noNegative _ | argument .. => .typeMismatch
  | retiredSlot _ => .unknownSlot
  | unassignedCode _ | valuesLeft _ => .evaluation

/-- What went wrong. -/
def message : EvalCause → String
  | divisionByZero => "Division by zero"
  | zeroComponent _ => "Division by a vector with a zero component"
  | moduloByZero => "Modulo by zero"
  | zeroPower e => "Zero raised to a negative power: 0 ^ " ++ realText e
  | inverseOfZero => "Function 'inv' called with zero"
  | moduloNotFinite a b => "Modulo of non-finite values: " ++ realText a ++ " % " ++ realText b
  | negativeBase b e =>
    "Negative base with a non-integer exponent: " ++ realText b ++ " ^ " ++ realText e
  | powerOutOfRange b e => "Result of " ++ realText b ++ " ^ " ++ realText e ++ " is out of range"
  | outsideDomain f x => "Argument outside the domain of '" ++ f ++ "': " ++ realText x
  | outOfRange f x => "Result of '" ++ f ++ "(" ++ realText x ++ ")' is out of range"
  | operands op a b =>
    "Cannot apply '" ++ op.symbol.toString ++ "' to " ++ a.name ++ " and " ++ b.name
  | noNegative k => "Cannot negate " ++ k.name
  | argument f wanted got =>
    "Function '" ++ f ++ "' requires a " ++ wanted.name ++ ", got " ++ got.name
  | retiredSlot slot => "Variable slot " ++ toString slot ++ " no longer exists"
  | unassignedCode code => "Unimplemented opcode: " ++ toString code
  | valuesLeft n => "Program left " ++ toString n ++ " values on the stack"

/-- The circumstances. -/
def context? : EvalCause → Option String
  | zeroComponent divisor => some ("Divisor: " ++ divisor.describe)
  | _ => none

/-- What may help. -/
def suggestion? : EvalCause → Option String
  | retiredSlot _ =>
    some "The variable was removed after the expression was parsed; parse it again"
  | _ => none

/-- The report of an evaluation error. -/
def report (cause : EvalCause) (position : Option Int) : Report :=
  { kind := cause.kind
    message := cause.message
    position
    context := cause.context?
    suggestion := cause.suggestion? }

end EvalCause

/-- The end of a run that does not succeed. -/
inductive Fault where
  /-- An evaluation error, with its place in the expression where that is known. -/
  | eval (cause : EvalCause) (position : Option Int)
  /-- A step needs more values than there are, or a code lies beyond its table. -/
  | outOfBounds
  /-- A constant to be loaded is missing. -/
  | blankConstant
  deriving DecidableEq, Inhabited

namespace Fault

/-- A fault of which the place is not known yet. -/
def ofCause (cause : EvalCause) : Fault := eval cause none

/-- Adds the place of an instruction, unless a place is known. -/
def atPosition : Fault → Int → Fault
  | eval cause position, p => eval cause (position.or (some p))
  | fault, _ => fault

/-- The report of a fault; faults that only code written by hand can run into have none. -/
def report? : Fault → Option Report
  | eval cause position => some (cause.report position)
  | outOfBounds | blankConstant => none

end Fault

end Reckoner
