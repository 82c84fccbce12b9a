import Reckoner.EvalError
import Reckoner.Whole

/-!
# Built-in functions

* `RealFunction` are the functions from reals to reals.  `RealFunction.apply` evaluates one, or
  tells whether the argument lies outside its domain or the result beyond all floats.
* `Builtin` adds the functions of several arguments, of vectors, and of either kind.
  `Builtin.apply` takes the arguments in order; surplus arguments are ignored.
-/

set_option autoImplicit false

namespace Reckoner

/-! ## Functions of one real variable -/

/-- The functions from reals to reals.  A name that ends in `d` takes degrees. -/
inductive RealFunction where
  | acos | acosh | asin | asinh | atan | atanh
  | ceil
  | cos | cosd | cosh
  | cot | cotd
  | csc | cscd
  | deg
  | exp
  | floor
  | int
  | log | log10
  | rad
  | sec | secd
  | sin | sind | sinh
  | sqrt
  | tan | tand | tanh
  deriving DecidableEq, Repr, Inhabited

/-- How a function of a real fails. -/
inductive RealFault where
  | domain
  | range
  deriving DecidableEq, Repr, Inhabited

/-- The ratio of a circle's circumference to its diameter. -/
def pi : Float := 3.141592653589793

/-- Degrees to radians. -/
def radians (x : Float) : Float := x * (pi / 180.0)

/-- Radians to degrees. -/
def degrees (x : Float) : Float := x * (180.0 / pi)

namespace RealFunction

/-- The name of a function. -/
def name : RealFunction → String
  | acos => "acos" | acosh => "acosh" | asin => "asin" | asinh => "asinh"
  | atan => "atan" | atanh => "atanh"
  | ceil => "ceil"
  | cos => "cos" | cosd => "cosd" | cosh => "cosh"
  | cot => "cot" | cotd => "cotd"
  | csc => "csc" | cscd => "cscd"
  | deg => "deg"
  | exp => "exp"
  | floor => "floor"
  | int => "int"
  | log => "log" | log10 => "log10"
  | rad => "rad"
  | sec => "sec" | secd => "secd"
  | sin => "sin" | sind => "sind" | sinh => "sinh"
  | sqrt => "sqrt"
  | tan => "tan" | tand => "tand" | tanh => "tanh"

/-- Accepts the result of an elementary function.  No number at a number means that the argument
is outside the domain; an infinity at a finite number is a pole or, where `growing`, too large a
result. -/
def accept (growing : Bool) (f : Float → Float) (x : Float) : Except RealFault Float :=
  let y := f x
  if y.isNaN && !x.isNaN then .error .domain
  else if y.isInf && x.isFinite then .error (if growing then .range else .domain)
  else .ok y

/-- A whole number next to `x`.  An infinity has none within range, and what is not a number has
none at all. -/
def ofWhole (x : Float) : Option Int → Except RealFault Float
  | some n => .ok (Float.ofInt n)
  | none => .error (if x.isNaN then .domain else .range)

/-- The reciprocal of an elementary function, which has a pole at each of its zeros. -/
def reciprocal (f : Float → Float) (x : Float) : Except RealFault Float := do
  let y ← accept false f x
  if y == 0.0 then .error .domain else .ok (1.0 / y)

/-- The value of a function. -/
def apply (function : RealFunction) (x : Float) : Except RealFault Float :=
  match function with
  | acos => accept false Float.acos x
  | acosh => accept false Float.acosh x
  | asin => accept false Float.asin x
  | asinh => accept false Float.asinh x
  | atan => accept false Float.atan x
  | atanh => accept false Float.atanh x
  | ceil => ofWhole x (Whole.ceil? x)
  | cos => accept false Float.cos x
  | cosd => accept false (Float.cos <| radians ·) x
  | cosh => accept true Float.cosh x
  | cot => reciprocal Float.tan x
  | cotd => reciprocal (Float.tan <| radians ·) x
  | csc => reciprocal Float.sin x
  | cscd => reciprocal (Float.sin <| radians ·) x
  | deg => .ok (degrees x)
  | exp => accept true Float.exp x
  | floor => ofWhole x (Whole.floor? x)
  | int => ofWhole (x + 0.5) (Whole.truncate? (x + 0.5))
  | log => accept false Float.log x
  | log10 => accept false Float.log10 x
  | rad => .ok (radians x)
  | sec => reciprocal Float.cos x
  | secd => reciprocal (Float.cos <| radians ·) x
  | sin => accept false Float.sin x
  | sind => accept false (Float.sin <| radians ·) x
  | sinh => accept true Float.sinh x
  | sqrt => accept false Float.sqrt x
  | tan => accept false Float.tan x
  | tand => accept false (Float.tan <| radians ·) x
  | tanh => accept false Float.tanh x

/-- The reason a function fails at `x`. -/
def cause (function : RealFunction) (x : Float) : RealFault → EvalCause
  | .domain => .outsideDomain function.name x
  | .range => .outOfRange function.name x

end RealFunction

/-! ## All functions -/

/-- The built-in functions. -/
inductive Builtin where
  | real (function : RealFunction)
  | abs
  | atan2
  | cross
  | dot
  | inv
  | max
  | min
  | vec3d
  deriving DecidableEq, Repr, Inhabited

namespace Builtin

/-- The built-in functions in the order of their names. -/
def all : List Builtin :=
  [abs, real .acos, real .acosh, real .asin, real .asinh, real .atan, atan2, real .atanh,
   real .ceil, real .cos, real .cosd, real .cosh, real .cot, real .cotd, cross, real .csc,
   real .cscd, real .deg, dot, real .exp, real .floor, real .int, inv, real .log, real .log10,
   max, min, real .rad, real .sec, real .secd, real .sin, real .sind, real .sinh, real .sqrt,
   real .tan, real .tand, real .tanh, vec3d]

/-- The name of a function. -/
def name : Builtin → String
  | real function => function.name
  | abs => "abs"
  | atan2 => "atan2"
  | cross => "cross"
  | dot => "dot"
  | inv => "inv"
  | max => "max"
  | min => "min"
  | vec3d => "vec3d"

/-- The number of arguments a function takes. -/
def arity : Builtin → Nat
  | real _ | abs | inv => 1
  | atan2 | cross | dot | max | min => 2
  | vec3d => 3

/-- The function of a name. -/
def ofName? (name : String) : Option Builtin := all.find? (·.name == name)

/-- A scalar argument. -/
def scalarArgument (function : Builtin) : Value → Except Fault Float
  | .scalar x => .ok x
  | v => .error (.ofCause (.argument function.name .scalar v.kind))

/-- A vector argument. -/
def vectorArgument (function : Builtin) : Value → Except Fault Vec3
  | .vector a => .ok a
  | v => .error (.ofCause (.argument function.name .vector v.kind))

/-- Argument number `i`. -/
def argument (args : List Value) (i : Nat) : Except Fault Value :=
  match args[i]? with
  | some v => .ok v
  | none => .error .outOfBounds

/-- Scalar argument number `i`. -/
def scalar (function : Builtin) (args : List Value) (i : Nat) : Except Fault Float := do
  function.scalarArgument (← argument args i)

/-- Vector argument number `i`. -/
def vector (function : Builtin) (args : List Value) (i : Nat) : Except Fault Vec3 := do
  function.vectorArgument (← argument args i)

/-- The value of a function of a real. -/
def applyReal (function : RealFunction) (args : List Value) : Except Fault Value := do
  let x ← (real function).scalar args 0
  match function.apply x with
  | .ok y => .ok (.scalar y)
  | .error fault => .error (.ofCause (function.cause x fault))

/-- The absolute value of a scalar, or the length of a vector. -/
def applyAbs (args : List Value) : Except Fault Value := do
  match ← argument args 0 with
  | .vector a => .ok (.scalar a.length)
  | v => return .scalar (← abs.scalarArgument v).abs

/-- The inverse of a scalar. -/
def applyInv (args : List Value) : Except Fault Value := do
  let x ← inv.scalar args 0
  if x == 0.0 then .error (.ofCause .inverseOfZero) else .ok (.scalar (1.0 / x))

/-- A function of two scalars, evaluated in order. -/
def applyScalars (function : Builtin) (f : Float → Float → Float) (args : List Value) :
    Except Fault Value := do
  let a ← function.scalar args 0
  let b ← function.scalar args 1
  return .scalar (f a b)

/-- A function of two vectors, evaluated in order. -/
def applyVectors (function : Builtin) (f : Vec3 → Vec3 → Value) (args : List Value) :
    Except Fault Value := do
  let a ← function.vector args 0
  let b ← function.vector args 1
  return f a b

/-- A vector of three scalars. -/
def applyVec3d (args : List Value) : Except Fault Value := do
  let x ← vec3d.scalar args 0
  let y ← vec3d.scalar args 1
  let z ← vec3d.scalar args 2
  return .vector ⟨x, y, z⟩

/-- The value of a function at its arguments. -/
def apply : Builtin → List Value → Except Fault Value
  | real function => applyReal function
  | abs => applyAbs
  | atan2 => applyScalars atan2 Float.atan2
  | cross => applyVectors cross fun a b => .vector (a.cross b)
  | dot => applyVectors dot fun a b => .scalar (a.dot b)
  | inv => applyInv
  | max => applyScalars max fun a b => if b < a then a else b
  | min => applyScalars min fun a b => if a < b then a else b
  | vec3d => applyVec3d

end Builtin

end Reckoner
