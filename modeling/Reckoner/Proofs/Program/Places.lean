import Reckoner.Proofs.Program.Execution

/-!
# Where a fault is placed

An operation does not know where it stands: its faults have no place (`Operation.unplaced_step`),
and they get one from the instruction that is being done.  So code whose instructions stand so many
characters further on does what it did, and its faults are placed so many characters further on
(`Code.exec_moved`, `Code.run_moved`).
-/

set_option autoImplicit false

namespace Reckoner

/-! ## Faults without a place -/

/-- No place is known for a fault. -/
def Fault.Unplaced : Fault → Prop
  | eval _ position => position = none
  | outOfBounds | blankConstant => True

/-- A computation that knows no place for its faults. -/
def Unplaced {α : Type} (result : Except Fault α) : Prop :=
  ∀ fault, result = .error fault → fault.Unplaced

section

variable {α β : Type}

theorem unplaced_ok (a : α) : Unplaced (.ok a) := fun _ h ↦ nomatch h

theorem unplaced_ofCause (cause : EvalCause) :
    Unplaced (.error (.ofCause cause) : Except Fault α) := by
  rintro fault ⟨⟩
  rfl

theorem unplaced_outOfBounds : Unplaced (.error .outOfBounds : Except Fault α) := by
  rintro fault ⟨⟩
  trivial

theorem Unplaced.bind {x : Except Fault α} {f : α → Except Fault β} (hx : Unplaced x)
    (hf : ∀ a, Unplaced (f a)) : Unplaced (x >>= f) := by
  cases x with
  | error fault =>
    rintro fault' h
    exact Except.error.inj h ▸ hx fault rfl
  | ok a => exact hf a

theorem Unplaced.map {x : Except Fault α} (hx : Unplaced x) (f : α → β) : Unplaced (x.map f) := by
  cases x with
  | error fault =>
    rintro fault' h
    exact Except.error.inj h ▸ hx fault rfl
  | ok a => exact unplaced_ok _

end

namespace Builtin

variable (function : Builtin) (args : List Value)

theorem unplaced_argument (i : Nat) : Unplaced (argument args i) := by
  unfold argument
  split
  · exact unplaced_ok _
  · exact unplaced_outOfBounds

theorem unplaced_scalarArgument (v : Value) : Unplaced (function.scalarArgument v) := by
  cases v with
  | scalar x => exact unplaced_ok x
  | vector | text => exact unplaced_ofCause _

theorem unplaced_vectorArgument (v : Value) : Unplaced (function.vectorArgument v) := by
  cases v with
  | vector a => exact unplaced_ok a
  | scalar | text => exact unplaced_ofCause _

theorem unplaced_scalar (i : Nat) : Unplaced (function.scalar args i) :=
  (unplaced_argument args i).bind (unplaced_scalarArgument function)

theorem unplaced_vector (i : Nat) : Unplaced (function.vector args i) :=
  (unplaced_argument args i).bind (unplaced_vectorArgument function)

theorem unplaced_applyReal (f : RealFunction) : Unplaced (applyReal f args) := by
  refine (unplaced_scalar _ args 0).bind fun x ↦ ?_
  split
  · exact unplaced_ok _
  · exact unplaced_ofCause _

theorem unplaced_applyAbs : Unplaced (applyAbs args) := by
  refine (unplaced_argument args 0).bind fun v ↦ ?_
  split
  · exact unplaced_ok _
  · exact (unplaced_scalarArgument abs _).bind fun x ↦ unplaced_ok _

theorem unplaced_applyInv : Unplaced (applyInv args) := by
  refine (unplaced_scalar inv args 0).bind fun x ↦ ?_
  split
  · exact unplaced_ofCause _
  · exact unplaced_ok _

theorem unplaced_applyScalars (f : Float → Float → Float) :
    Unplaced (function.applyScalars f args) :=
  (unplaced_scalar function args 0).bind fun _ ↦
    (unplaced_scalar function args 1).bind fun _ ↦ unplaced_ok _

theorem unplaced_applyVectors (f : Vec3 → Vec3 → Value) :
    Unplaced (function.applyVectors f args) :=
  (unplaced_vector function args 0).bind fun _ ↦
    (unplaced_vector function args 1).bind fun _ ↦ unplaced_ok _

theorem unplaced_applyVec3d : Unplaced (applyVec3d args) :=
  (unplaced_scalar vec3d args 0).bind fun _ ↦
    (unplaced_scalar vec3d args 1).bind fun _ ↦
      (unplaced_scalar vec3d args 2).bind fun _ ↦ unplaced_ok _

/-- A function knows no place. -/
theorem unplaced_apply : Unplaced (function.apply args) := by
  cases function with
  | real f => exact unplaced_applyReal args f
  | abs => exact unplaced_applyAbs args
  | atan2 => exact unplaced_applyScalars atan2 args _
  | cross => exact unplaced_applyVectors cross args _
  | dot => exact unplaced_applyVectors dot args _
  | inv => exact unplaced_applyInv args
  | max => exact unplaced_applyScalars max args _
  | min => exact unplaced_applyScalars min args _
  | vec3d => exact unplaced_applyVec3d args

end Builtin

variable (functions : List Builtin)

theorem unplaced_callStep (code arity : Int) (stack : Stack) :
    Unplaced (callStep functions code arity stack) := by
  unfold callStep
  dsimp only
  split
  · next function _ =>
    exact (function.unplaced_apply _).bind fun _ ↦ unplaced_ok _
  · exact unplaced_outOfBounds

/-- **An operation knows no place.** -/
theorem Operation.unplaced_step (operation : Operation) (stack : Stack) (env : Environment) :
    Unplaced (operation.step functions stack env) := by
  cases operation with
  | call code arity => exact (unplaced_callStep functions code arity stack).map _
  | constant value => exact unplaced_ok _
  | blank =>
    rintro fault ⟨⟩
    trivial
  | unassigned code => exact unplaced_ofCause _
  | beyond => exact unplaced_outOfBounds
  | load slot =>
    rw [step]
    split
    · exact unplaced_ok _
    · exact unplaced_ofCause _
  | store slot =>
    cases stack with
    | nil => exact unplaced_outOfBounds
    | cons value stack =>
      rw [step]
      split
      · exact unplaced_ok _
      · exact unplaced_ofCause _
  | discard =>
    cases stack with
    | nil => exact unplaced_outOfBounds
    | cons value stack => exact unplaced_ok _
  | binary op =>
    rcases stack with _ | ⟨b, _ | ⟨a, stack⟩⟩
    · exact unplaced_outOfBounds
    · exact unplaced_outOfBounds
    · rw [step]
      split
      · exact unplaced_ok _
      · exact unplaced_ofCause _
  | negate =>
    cases stack with
    | nil => exact unplaced_outOfBounds
    | cons a stack =>
      rw [step]
      split
      · exact unplaced_ok _
      · exact unplaced_ofCause _

/-! ## Code further on -/

/-- A fault so many characters further on, if its place is known. -/
def Fault.moved (k : Nat) : Fault → Fault
  | eval cause position => eval cause (position.map (· + (k : Int)))
  | fault => fault

theorem Fault.Unplaced.atPosition_moved {fault : Fault} (h : fault.Unplaced) (k : Nat)
    (position : Int) : fault.atPosition (position + k) = (fault.atPosition position).moved k := by
  cases fault with
  | eval cause place =>
    obtain rfl : place = none := h
    rfl
  | outOfBounds | blankConstant => rfl

/-- An outcome with its fault so many characters further on. -/
def Outcome.moved {α : Type} (k : Nat) (o : Outcome α) : Outcome α :=
  (o.1.mapError (Fault.moved k), o.2)

theorem Outcome.andThen_moved {α β : Type} {k : Nat} {o : Outcome α}
    {f g : α → Environment → Outcome β} (h : ∀ a env, g a env = (f a env).moved k) :
    (o.moved k).andThen g = (o.andThen f).moved k := by
  rcases o with ⟨fault | a, env⟩
  · rfl
  · exact h a env

/-- An instruction so many characters further on. -/
def Instruction.moved (k : Nat) (i : Instruction) : Instruction :=
  { i with position := i.position + k }

theorem Instruction.exec_moved (k : Nat) (i : Instruction) (stack : Stack) (env : Environment) :
    (i.moved k).exec functions stack env = (i.exec functions stack env).moved k := by
  have hunplaced := i.operation.unplaced_step functions stack env
  have hmoved : (i.moved k).operation = i.operation := rfl
  rw [exec, exec, hmoved]
  cases hstep : i.operation.step functions stack env with
  | ok next => rfl
  | error fault =>
    simp only [Outcome.moved, Except.mapError, Prod.mk.injEq, and_true]
    exact congrArg Except.error ((hunplaced fault hstep).atPosition_moved k i.position)

/-- **Code that stands further on does the same**, and its faults are further on. -/
theorem Code.exec_moved (k : Nat) (code : Code) (stack : Stack) (env : Environment) :
    exec functions (code.map (Instruction.moved k)) stack env =
      (exec functions code stack env).moved k := by
  induction code generalizing stack env with
  | nil => rfl
  | cons i code ih =>
    rw [List.map_cons, exec_cons, exec_cons, Instruction.exec_moved]
    exact Outcome.andThen_moved ih

theorem Stack.result_moved (k : Nat) (stack : Stack) :
    stack.result.mapError (Fault.moved k) = stack.result := by
  rcases stack with _ | ⟨value, _ | ⟨other, stack⟩⟩ <;> rfl

theorem Code.run_moved (k : Nat) (code : Code) (stack : Stack) (env : Environment) :
    run functions (code.map (Instruction.moved k)) stack env =
      Outcome.moved k (run functions code stack env) := by
  rw [run_eq_exec, run_eq_exec, exec_moved]
  refine Outcome.andThen_moved fun stack env ↦ ?_
  rw [Outcome.moved, Stack.result_moved]

end Reckoner
