import Reckoner.Proofs.Program.Execution

/-!
# Machines whose arithmetic raises

The arithmetic that `Code.run` uses has a result for everything, and the tests before it decide what
is an error.  On a real machine some primitives raise an error of their own where they have no
result, and such an error ends the run with nothing said about the expression, unless a test comes
first or a handler turns it into an evaluation error.

* `Arithmetic` are the primitives that may raise, and `Arithmetic.Lawful` says where they may.
* `Arithmetic.step` and `Arithmetic.run` are `Operation.step` and `Code.run` with these primitives,
  each with the tests before it and the handler around it.  What cannot raise is taken over.
* `Arithmetic.standard` raises where the machine does, and otherwise has the results of the
  arithmetic of `Code.run`.  With it a run is the run of `Code.run` (`Arithmetic.run_standard`):
  every error of a primitive has become an evaluation error, and that is the one that the tests
  make.
-/

set_option autoImplicit false

namespace Reckoner

/-- An error of a primitive. -/
inductive Trap where
  /-- A divisor is zero. -/
  | zeroDivision
  /-- An argument is not in the domain. -/
  | value
  /-- A result is out of range. -/
  | overflow
  deriving DecidableEq, Repr

/-- What ends a run that does not succeed: a fault, or an error of a primitive that escapes. -/
inductive Raised where
  | fault (fault : Fault)
  | trap (trap : Trap)
  deriving DecidableEq

/-- Adds the position of an instruction to an evaluation error, and to nothing else. -/
def Raised.atPosition : Raised → Int → Raised
  | fault f, position => fault (f.atPosition position)
  | trap t, _ => trap t

/-- Whether a number is finite. -/
def Whole.isFinite (x : Float) : Bool :=
  match Decimal.classify x with
  | .finite _ _ => true
  | _ => false

/-- Finite numbers have whole parts, and no others do. -/
theorem Whole.isSome_truncate? (x : Float) : (truncate? x).isSome = isFinite x := by
  cases hclass : Decimal.classify x <;> simp [truncate?, isFinite, hclass]

/-- The primitives of a machine that may raise. -/
structure Arithmetic where
  /-- The quotient of two numbers. -/
  divide : Float → Float → Except Trap Float
  /-- The whole part of a number. -/
  truncate : Float → Except Trap Int
  /-- The remainder of two whole numbers. -/
  remainder : Int → Int → Except Trap Float
  /-- The real power. -/
  power : Float → Float → Except Trap Float
  /-- The angle of a point. -/
  atan2 : Float → Float → Except Trap Float
  /-- The root of the sum of the squares of the components. -/
  length : Vec3 → Except Trap Float
  /-- The functions of a real that are not the reciprocal of another. -/
  real : RealFunction → Float → Except Trap Float

namespace Arithmetic

/-- Where the primitives may raise, and what. -/
structure Lawful (A : Arithmetic) : Prop where
  /-- A quotient raises only if the divisor is zero. -/
  divide : ∀ x {y}, (y == 0.0) = false → ∃ z, A.divide x y = .ok z
  /-- A finite number has a whole part. -/
  truncate : ∀ {x}, Whole.isFinite x = true → ∃ n, A.truncate x = .ok n
  /-- A remainder raises only if the divisor is zero. -/
  remainder : ∀ a {b}, b ≠ 0 → ∃ z, A.remainder a b = .ok z
  /-- A power raises if it is out of range, or else only if the base is zero and the exponent
  negative, or the base negative and the exponent not whole. -/
  power : ∀ {x y t}, A.power x y = .error t →
    t = .overflow ∨ (x == 0.0 && y < 0.0) = true ∨ (x < 0.0 && !Whole.isWhole y) = true
  /-- Every point has an angle. -/
  atan2 : ∀ y x, ∃ z, A.atan2 y x = .ok z
  /-- Every sum of squares has a root. -/
  length : ∀ a, ∃ z, A.length a = .ok z
  /-- The other functions raise no error about a divisor. -/
  real : ∀ {f x t}, A.real f x = .error t → t = .value ∨ t = .overflow

/-- Fails with an evaluation error. -/
def fail {α : Type} (cause : EvalCause) : Except Raised α := .error (.fault (.ofCause cause))

/-- A computation that needs no primitive. -/
def total {α : Type} (result : Except Fault α) : Except Raised α := result.mapError .fault

/-- A primitive without a handler around it. -/
def unguarded {α : Type} (result : Except Trap α) : Except Raised α := result.mapError .trap

section

variable {α β : Type}

@[simp] theorem total_ok (a : α) : total (.ok a) = .ok a := rfl

@[simp] theorem total_error (f : Fault) : total (.error f : Except Fault α) = .error (.fault f) :=
  rfl

@[simp] theorem unguarded_ok (a : α) : unguarded (.ok a) = .ok a := rfl

@[simp] theorem unguarded_error (t : Trap) :
    unguarded (.error t : Except Trap α) = .error (.trap t) := rfl

theorem total_eq_ok {x : Except Fault α} {a : α} : total x = .ok a ↔ x = .ok a := by
  cases x <;> simp

theorem total_eq_error {x : Except Fault α} {f : Fault} :
    total x = .error (.fault f) ↔ x = .error f := by
  cases x <;> simp

theorem total_bind (x : Except Fault α) (f : α → Except Fault β) :
    total (x >>= f) = total x >>= fun a ↦ total (f a) := by
  cases x <;> rfl

end

variable (A : Arithmetic)

/-! ## Operators -/

/-- The quotients of the components. -/
def quotients (v w : Vec3) : Except Raised Value := do
  let x ← unguarded (A.divide v.x w.x)
  let y ← unguarded (A.divide v.y w.y)
  let z ← unguarded (A.divide v.z w.z)
  return .vector ⟨x, y, z⟩

/-- The quotient of two values. -/
def quotient (a b : Value) : Except Raised Value :=
  match a, b with
  | .scalar x, .scalar y =>
    if y == 0.0 then fail .divisionByZero else do return .scalar (← unguarded (A.divide x y))
  | .vector v, .scalar y => if y == 0.0 then fail .divisionByZero else A.quotients v ⟨y, y, y⟩
  | .scalar x, .vector w =>
    if Operator.hasZeroComponent w then fail (.zeroComponent w) else A.quotients ⟨x, x, x⟩ w
  | .vector v, .vector w =>
    if Operator.hasZeroComponent w then fail (.zeroComponent w) else A.quotients v w
  | .text _, .vector w =>
    fail (if Operator.hasZeroComponent w then .zeroComponent w else .operands .div .text .vector)
  | a, b => fail (.operands .div a.kind b.kind)

/-- The remainder of the whole parts. -/
def modulo (x y : Float) : Except Raised Value :=
  if Whole.isFinite x && Whole.isFinite y then do
    let b ← unguarded (A.truncate y)
    if b = 0 then fail .moduloByZero
    else
      let a ← unguarded (A.truncate x)
      return .scalar (← unguarded (A.remainder a b))
  else fail (.moduloNotFinite x y)

/-- The real power.  A result out of range is handled. -/
def exponentiate (x y : Float) : Except Raised Value :=
  if x == 0.0 && y < 0.0 then fail (.zeroPower y)
  else if x < 0.0 && !Whole.isWhole y then fail (.negativeBase x y)
  else
    match A.power x y with
    | .ok z => .ok (.scalar z)
    | .error .overflow => fail (.powerOutOfRange x y)
    | .error t => .error (.trap t)

/-- The value of an operator at two operands. -/
def binary : Operator → Value → Value → Except Raised Value
  | .div, a, b => A.quotient a b
  | .mod, .scalar x, .scalar y => A.modulo x y
  | .pow, .scalar x, .scalar y => A.exponentiate x y
  | op, a, b => total ((op.apply a b).mapError .ofCause)

/-! ## Functions -/

/-- The reciprocal of a function, which is not defined where the function is zero. -/
def reciprocal (function : RealFunction) (x : Float) : Except Trap Float := do
  let y ← A.real function x
  if y == 0.0 then .error .value else A.divide 1.0 y

/-- The value of a function of a real. -/
def function : RealFunction → Float → Except Trap Float
  | .cot, x => A.reciprocal .tan x
  | .cotd, x => A.reciprocal .tand x
  | .csc, x => A.reciprocal .sin x
  | .cscd, x => A.reciprocal .sind x
  | .sec, x => A.reciprocal .cos x
  | .secd, x => A.reciprocal .cosd x
  | function, x => A.real function x

/-- The value of a function of a real.  An argument outside the domain and a result out of range are
handled. -/
def applyReal (function : RealFunction) (args : List Value) : Except Raised Value := do
  let x ← total ((Builtin.real function).scalar args 0)
  match A.function function x with
  | .ok y => .ok (.scalar y)
  | .error .value => fail (function.cause x .domain)
  | .error .overflow => fail (function.cause x .range)
  | .error t => .error (.trap t)

/-- The absolute value of a scalar, or the length of a vector. -/
def applyAbs (args : List Value) : Except Raised Value :=
  match args[0]? with
  | some (Value.vector a) => do return .scalar (← unguarded (A.length a))
  | _ => total (Builtin.abs.apply args)

/-- The angle of a point. -/
def applyAtan2 (args : List Value) : Except Raised Value := do
  let y ← total (Builtin.atan2.scalar args 0)
  let x ← total (Builtin.atan2.scalar args 1)
  return .scalar (← unguarded (A.atan2 y x))

/-- The inverse of a scalar. -/
def applyInv (args : List Value) : Except Raised Value := do
  let x ← total (Builtin.inv.scalar args 0)
  if x == 0.0 then fail .inverseOfZero else return .scalar (← unguarded (A.divide 1.0 x))

/-- The value of a function at its arguments. -/
def apply : Builtin → List Value → Except Raised Value
  | .real function, args => A.applyReal function args
  | .abs, args => A.applyAbs args
  | .atan2, args => A.applyAtan2 args
  | .inv, args => A.applyInv args
  | function, args => total (function.apply args)

/-! ## Code -/

/-- Replaces the arguments of a function by its value. -/
def callStep (functions : List Builtin) (code arity : Int) (stack : Stack) :
    Except Raised Stack :=
  let count := argumentCount stack.length arity
  match functionAt? functions code with
  | some function => (A.apply function (stack.take count).reverse).map (· :: stack.drop count)
  | none => .error (.fault .outOfBounds)

/-- Does one operation. -/
def step (functions : List Builtin) (operation : Operation) (stack : Stack) (env : Environment) :
    Except Raised (Stack × Environment) :=
  match operation, stack with
  | .binary op, b :: a :: stack => (A.binary op a b).map fun value ↦ (value :: stack, env)
  | .call code arity, stack => (A.callStep functions code arity stack).map (·, env)
  | operation, stack => total (operation.step functions stack env)

/-- Does one instruction after the other, and answers the stack that is left.  An evaluation error
tells the position of its instruction. -/
def exec (functions : List Builtin) : Code → Stack → Environment →
    Except Raised Stack × Environment
  | [], stack, env => (.ok stack, env)
  | i :: code, stack, env =>
    match A.step functions i.operation stack env with
    | .ok (stack, env) => exec functions code stack env
    | .error raised => (.error (raised.atPosition i.position), env)

/-- Runs code on a stack and an environment. -/
def run (functions : List Builtin) (code : Code) (stack : Stack) (env : Environment) :
    Except Raised Value × Environment :=
  match A.exec functions code stack env with
  | (.ok stack, env) => (total stack.result, env)
  | (.error raised, env) => (.error raised, env)

/-! ## The standard arithmetic -/

/-- An error of a function of a real, as a primitive raises it. -/
def trapOf : RealFault → Trap
  | .domain => .value
  | .range => .overflow

/-- The arithmetic that raises where a machine does, and otherwise has the results that `Code.run`
has. -/
def standard : Arithmetic where
  divide x y := if y == 0.0 then .error .zeroDivision else .ok (x / y)
  truncate x :=
    match Whole.truncate? x with
    | some n => .ok n
    | none => .error (if x.isNaN then .value else .overflow)
  remainder a b :=
    if b = 0 then .error .value else .ok (Operator.wholeFloat (decide (a < 0)) (a.tmod b))
  power x y :=
    if x == 0.0 && y < 0.0 then .error .value
    else if x < 0.0 && !Whole.isWhole y then .error .value
    else if x.isFinite && y.isFinite && (Float.pow x y).isInf then .error .overflow
    else .ok (Float.pow x y)
  atan2 y x := .ok (Float.atan2 y x)
  length a := .ok a.length
  real function x := (function.apply x).mapError trapOf

/-- A power that has passed the tests before it. -/
theorem power_standard {x y : Float} (hzero : ¬(x == 0.0 && y < 0.0) = true)
    (hnegative : ¬(x < 0.0 && !Whole.isWhole y) = true) :
    standard.power x y =
      if x.isFinite && y.isFinite && (Float.pow x y).isInf then .error .overflow
      else .ok (Float.pow x y) :=
  (if_neg hzero).trans (if_neg hnegative)

theorem lawful_standard : standard.Lawful where
  divide x y hy := ⟨x / y, by simp [standard, hy]⟩
  truncate hx := by
    rw [← Whole.isSome_truncate?] at hx
    obtain ⟨n, hn⟩ := Option.isSome_iff_exists.1 hx
    exact ⟨n, by simp [standard, hn]⟩
  remainder a b hb := ⟨_, if_neg hb⟩
  power {x y t} h := by
    by_cases hzero : (x == 0.0 && y < 0.0) = true
    · exact .inr (.inl hzero)
    by_cases hnegative : (x < 0.0 && !Whole.isWhole y) = true
    · exact .inr (.inr hnegative)
    rw [power_standard hzero hnegative] at h
    split at h
    · exact .inl (Except.error.inj h).symm
    · cases h
  atan2 y x := ⟨_, rfl⟩
  length a := ⟨_, rfl⟩
  real {function x t} h := by
    obtain ⟨fault, rfl⟩ : ∃ fault, t = trapOf fault := by
      simp only [standard] at h
      cases hf : function.apply x with
      | error fault =>
        rw [hf] at h
        cases h
        exact ⟨fault, rfl⟩
      | ok y =>
        rw [hf] at h
        cases h
    cases fault
    · exact .inl rfl
    · exact .inr rfl

theorem quotients_standard {v w : Vec3} (h : Operator.hasZeroComponent w = false) :
    standard.quotients v w = .ok (.vector (Vec3.zipWith (· / ·) v w)) := by
  simp only [Operator.hasZeroComponent, Vec3.components, List.any_cons, List.any_nil,
    Bool.or_false, Bool.or_eq_false_iff] at h
  obtain ⟨hx, hy, hz⟩ := h
  simp only [quotients, standard, hx, hy, hz]
  rfl

theorem quotient_standard (a b : Value) :
    standard.quotient a b = total ((Operator.div.apply a b).mapError .ofCause) := by
  cases b with
  | scalar y =>
    by_cases hy : (y == 0.0) = true
    · cases a <;> simp [quotient, Operator.apply, Operator.divide, Operator.mismatch, hy, fail,
        Except.mapError, Value.kind]
    · rw [Bool.not_eq_true] at hy
      cases a with
      | scalar x =>
        simp [quotient, Operator.apply, Operator.divide, hy, standard, Except.mapError, bind,
          Except.bind, pure, Except.pure]
      | vector v =>
        have hw : Operator.hasZeroComponent ⟨y, y, y⟩ = false := by
          simp [Operator.hasZeroComponent, Vec3.components, hy]
        simp only [quotient, Operator.apply, Operator.divide, hy, quotients_standard hw]
        rfl
      | text s => rfl
  | vector w =>
    by_cases hw : Operator.hasZeroComponent w = true
    · cases a <;> simp [quotient, Operator.apply, Operator.divide, hw, fail, Except.mapError]
    · rw [Bool.not_eq_true] at hw
      cases a with
      | scalar x =>
        simp only [quotient, Operator.apply, Operator.divide, hw, quotients_standard hw]
        rfl
      | vector v =>
        simp only [quotient, Operator.apply, Operator.divide, hw, quotients_standard hw]
        rfl
      | text s =>
        simp only [quotient, Operator.apply, Operator.divide, hw]
        rfl
  | text t => cases a <;> rfl

theorem modulo_standard (x y : Float) :
    standard.modulo x y = total ((Operator.remainder x y).mapError .ofCause) := by
  rw [modulo, ← Whole.isSome_truncate?, ← Whole.isSome_truncate?, Operator.remainder]
  rcases hx : Whole.truncate? x with _ | a
  · rfl
  rcases hy : Whole.truncate? y with _ | b
  · rfl
  have htruncate : standard.truncate x = .ok a ∧ standard.truncate y = .ok b := by
    simp [standard, hx, hy]
  rw [htruncate.1, htruncate.2]
  by_cases hb : b = 0
  · simp [hb, fail, Except.mapError, bind, Except.bind]
  · simp [hb, standard, Except.mapError, bind, Except.bind, pure, Except.pure]

theorem exponentiate_standard (x y : Float) :
    standard.exponentiate x y = total ((Operator.power x y).mapError .ofCause) := by
  rw [exponentiate, Operator.power]
  split
  · rfl
  · next hzero =>
    split
    · rfl
    · next hnegative =>
      rw [power_standard hzero hnegative]
      by_cases hrange : (x.isFinite && y.isFinite && (Float.pow x y).isInf) = true
      · simp only [if_pos hrange]
        rfl
      · simp only [if_neg hrange]
        rfl

theorem binary_standard (op : Operator) (a b : Value) :
    standard.binary op a b = total ((op.apply a b).mapError .ofCause) := by
  cases op with
  | div => exact quotient_standard a b
  | mod => cases a <;> cases b <;> first | rfl | exact modulo_standard _ _
  | pow => cases a <;> cases b <;> first | rfl | exact exponentiate_standard _ _
  | add | sub | mul => rfl

theorem function_standard (function : RealFunction) (x : Float) :
    standard.function function x = (function.apply x).mapError trapOf := by
  have hreciprocal : ∀ (g : RealFunction) (f : Float → Float),
      g.apply x = RealFunction.accept false f x →
        standard.reciprocal g x = (RealFunction.reciprocal f x).mapError trapOf := by
    intro g f hg
    have hreal : standard.real g x = (RealFunction.accept false f x).mapError trapOf := by
      rw [← hg]
      rfl
    rw [reciprocal, RealFunction.reciprocal, hreal]
    cases RealFunction.accept false f x with
    | error fault => rfl
    | ok y =>
      show (if y == 0.0 then .error .value else standard.divide 1.0 y) =
        Except.mapError trapOf (if y == 0.0 then .error .domain else .ok (1.0 / y))
      by_cases hy : (y == 0.0) = true
      · rw [if_pos hy, if_pos hy]
        rfl
      · rw [if_neg hy, if_neg hy]
        exact if_neg hy
  cases function with
  | cot => exact hreciprocal .tan _ rfl
  | cotd => exact hreciprocal .tand _ rfl
  | csc => exact hreciprocal .sin _ rfl
  | cscd => exact hreciprocal .sind _ rfl
  | sec => exact hreciprocal .cos _ rfl
  | secd => exact hreciprocal .cosd _ rfl
  | _ => rfl

theorem applyReal_standard (function : RealFunction) (args : List Value) :
    standard.applyReal function args = total (Builtin.applyReal function args) := by
  rw [applyReal, Builtin.applyReal, total_bind]
  refine bind_congr fun x ↦ ?_
  rw [function_standard]
  rcases function.apply x with (_ | _) | y <;> rfl

theorem applyInv_standard (args : List Value) :
    standard.applyInv args = total (Builtin.applyInv args) := by
  rw [applyInv, Builtin.applyInv, total_bind]
  refine bind_congr fun x ↦ ?_
  by_cases hx : (x == 0.0) = true
  · rw [if_pos hx, if_pos hx]
    rfl
  · have hdivide : standard.divide 1.0 x = .ok (1.0 / x) := if_neg hx
    rw [if_neg hx, if_neg hx, hdivide]
    rfl

theorem applyAbs_standard (args : List Value) :
    standard.applyAbs args = total (Builtin.applyAbs args) := by
  unfold applyAbs
  split
  · next a ha =>
    rw [Builtin.applyAbs, Builtin.argument, ha]
    rfl
  · rfl

theorem apply_standard (function : Builtin) (args : List Value) :
    standard.apply function args = total (function.apply args) := by
  cases function with
  | real function => exact applyReal_standard function args
  | abs => exact applyAbs_standard args
  | inv => exact applyInv_standard args
  | atan2 =>
    show standard.applyAtan2 args = _
    rw [applyAtan2, Builtin.apply, Builtin.applyScalars, total_bind]
    refine bind_congr fun y ↦ ?_
    rw [total_bind]
    rfl
  | cross | dot | max | min | vec3d => rfl

theorem step_standard (functions : List Builtin) (operation : Operation) (stack : Stack)
    (env : Environment) :
    standard.step functions operation stack env = total (operation.step functions stack env) := by
  cases operation with
  | binary op =>
    rcases stack with _ | ⟨b, _ | ⟨a, stack⟩⟩
    · rfl
    · rfl
    · simp only [step, Operation.step, binary_standard]
      cases op.apply a b <;> rfl
  | call code arity =>
    simp only [step, Operation.step, callStep, Reckoner.callStep]
    cases functionAt? functions code with
    | none => rfl
    | some function =>
      simp only [apply_standard]
      cases function.apply (stack.take (argumentCount stack.length arity)).reverse <;> rfl
  | _ => rfl

theorem exec_standard (functions : List Builtin) (code : Code) (stack : Stack)
    (env : Environment) :
    standard.exec functions code stack env =
      (total (Code.exec functions code stack env).1, (Code.exec functions code stack env).2) := by
  induction code generalizing stack env with
  | nil => rfl
  | cons i code ih =>
    rw [exec, step_standard, Code.exec_cons, Instruction.exec]
    rcases i.operation.step functions stack env with fault | ⟨stack', env'⟩
    · rfl
    · exact ih stack' env'

/-- **With the standard arithmetic a run is a run.** -/
theorem run_standard (functions : List Builtin) (code : Code) (stack : Stack) (env : Environment) :
    standard.run functions code stack env =
      (total (Code.run functions code stack env).1, (Code.run functions code stack env).2) := by
  rw [run, exec_standard, Code.run_eq_exec]
  rcases Code.exec functions code stack env with ⟨_ | _, _⟩ <;> rfl

end Arithmetic

end Reckoner
