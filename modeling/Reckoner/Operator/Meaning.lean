import Reckoner.EvalError
import Reckoner.Whole

/-!
# What operators do

* `Operator.apply` combines two values.  Sums and differences need operands of one kind, remainders
  and powers need scalars, and products and quotients mix scalars and vectors freely; the product of
  two vectors is their vector product.  Texts have no arithmetic.
* `Value.negate` changes the sign of a scalar or vector.
-/

set_option autoImplicit false

namespace Reckoner

namespace Operator

/-- Operands of kinds the operator does not take. -/
def mismatch (op : Operator) (a b : Value) : Except EvalCause Value :=
  .error (.operands op a.kind b.kind)

/-- Combines two scalars, or two vectors component by component. -/
def componentwise (op : Operator) (f : Float → Float → Float) :
    Value → Value → Except EvalCause Value
  | .scalar x, .scalar y => .ok (.scalar (f x y))
  | .vector a, .vector b => .ok (.vector (Vec3.zipWith f a b))
  | a, b => op.mismatch a b

/-- The product of scalars, a scaled vector, or a vector product. -/
def multiply : Value → Value → Except EvalCause Value
  | .scalar x, .scalar y => .ok (.scalar (x * y))
  | .scalar x, .vector b => .ok (.vector (b.map (x * ·)))
  | .vector a, .scalar y => .ok (.vector (a.map (· * y)))
  | .vector a, .vector b => .ok (.vector (a.cross b))
  | a, b => mul.mismatch a b

/-- Whether a component of a vector is zero. -/
def hasZeroComponent (b : Vec3) : Bool := b.components.any (· == 0.0)

/-- The quotient, component by component where a vector is involved.  A vector divisor with a zero
component is refused whatever it divides. -/
def divide (a b : Value) : Except EvalCause Value :=
  match a, b with
  | .text _, .scalar _ => div.mismatch a b
  | .scalar x, .scalar y => if y == 0.0 then .error .divisionByZero else .ok (.scalar (x / y))
  | .vector v, .scalar y =>
    if y == 0.0 then .error .divisionByZero else .ok (.vector (v.map (· / y)))
  | a, .vector w =>
    if hasZeroComponent w then .error (.zeroComponent w)
    else
      match a with
      | .scalar x => .ok (.vector (w.map (x / ·)))
      | .vector v => .ok (.vector (Vec3.zipWith (· / ·) v w))
      | .text _ => div.mismatch a b
  | a, .text _ => div.mismatch a b

/-- A whole number as a float; a zero can have a sign. -/
def wholeFloat (negativeZero : Bool) (n : Int) : Float :=
  if n = 0 ∧ negativeZero then -0.0 else Float.ofInt n

/-- The remainder of the whole parts, with the sign of the dividend. -/
def remainder (x y : Float) : Except EvalCause Value :=
  match Whole.truncate? x, Whole.truncate? y with
  | some a, some b =>
    if b = 0 then .error .moduloByZero
    else .ok (.scalar (wholeFloat (decide (a < 0)) (a.tmod b)))
  | _, _ => .error (.moduloNotFinite x y)

/-- The real power. -/
def power (x y : Float) : Except EvalCause Value :=
  if x == 0.0 && y < 0.0 then .error (.zeroPower y)
  else if x < 0.0 && !Whole.isWhole y then .error (.negativeBase x y)
  else
    let result := Float.pow x y
    if x.isFinite && y.isFinite && result.isInf then .error (.powerOutOfRange x y)
    else .ok (.scalar result)

/-- Combines two scalars and nothing else. -/
def scalarsOnly (op : Operator) (f : Float → Float → Except EvalCause Value) :
    Value → Value → Except EvalCause Value
  | .scalar x, .scalar y => f x y
  | a, b => op.mismatch a b

/-- The value of an operator at two operands. -/
def apply : Operator → Value → Value → Except EvalCause Value
  | add => componentwise add (· + ·)
  | sub => componentwise sub (· - ·)
  | mul => multiply
  | div => divide
  | mod => scalarsOnly mod remainder
  | pow => scalarsOnly pow power

end Operator

/-- Changes the sign of a scalar, or of each component of a vector. -/
def Value.negate : Value → Except EvalCause Value
  | .scalar x => .ok (.scalar (-x))
  | .vector a => .ok (.vector (a.map (-·)))
  | .text _ => .error (.noNegative .text)

end Reckoner
