import Reckoner.Program.Run
import Reckoner.Proofs.Environment.Keys

/-!
# Executing code

`Code.run` asks at its end whether exactly one value is left, so a run of two pieces of code is not
a run of one and then of the other.  `Code.exec` leaves that question out: it answers the stack that
code leaves behind, and so it composes.

* `Code.run_eq_exec` gets a run back from it.
* `Code.exec_append` is the composition, and `Code.exec_at` the same around one instruction.
* `Code.StopsAfter` tells how many instructions an execution completes, which is all of them or those
  before one that fails.
* `Code.keys_exec` says that executing code changes neither names nor slots, whether it fails or
  not.
-/

set_option autoImplicit false

namespace Reckoner

/-- What a computation on an environment comes to, and the environment that it leaves behind. -/
abbrev Outcome (α : Type) := Except Fault α × Environment

/-- Goes on with the result of a computation, unless that has failed. -/
def Outcome.andThen {α β : Type} (o : Outcome α) (f : α → Environment → Outcome β) : Outcome β :=
  match o with
  | (.ok a, env) => f a env
  | (.error fault, env) => (.error fault, env)

namespace Outcome

variable {α β γ : Type}

@[simp] theorem andThen_ok (a : α) (env : Environment) (f : α → Environment → Outcome β) :
    Outcome.andThen (.ok a, env) f = f a env := rfl

@[simp] theorem andThen_error (fault : Fault) (env : Environment)
    (f : α → Environment → Outcome β) :
    Outcome.andThen (.error fault, env) f = (.error fault, env) := rfl

theorem andThen_assoc (o : Outcome α) (f : α → Environment → Outcome β)
    (g : β → Environment → Outcome γ) :
    (o.andThen f).andThen g = o.andThen fun a env ↦ (f a env).andThen g := by
  rcases o with ⟨_ | _, _⟩ <;> rfl

theorem andThen_eq_ok {o : Outcome α} {f : α → Environment → Outcome β} {b : β}
    {env : Environment} (h : o.andThen f = (.ok b, env)) :
    ∃ a env', o = (.ok a, env') ∧ f a env' = (.ok b, env) := by
  rcases o with ⟨_ | a, env'⟩
  · simp at h
  · exact ⟨a, env', rfl, h⟩

end Outcome

variable (functions : List Builtin)

/-- Does one instruction.  A fault tells the position of the instruction. -/
def Instruction.exec (i : Instruction) (stack : Stack) (env : Environment) : Outcome Stack :=
  match i.operation.step functions stack env with
  | .ok (stack, env) => (.ok stack, env)
  | .error fault => (.error (fault.atPosition i.position), env)

namespace Code

/-- Does one instruction after the other, and answers the stack that is left. -/
def exec : Code → Stack → Environment → Outcome Stack
  | [], stack, env => (.ok stack, env)
  | i :: code, stack, env => (i.exec functions stack env).andThen (exec code)

@[simp] theorem exec_nil (stack : Stack) (env : Environment) :
    exec functions [] stack env = (.ok stack, env) := rfl

@[simp] theorem exec_cons (i : Instruction) (code : Code) (stack : Stack) (env : Environment) :
    exec functions (i :: code) stack env =
      (i.exec functions stack env).andThen (exec functions code) := rfl

/-- A run executes its code and looks at what is left. -/
theorem run_eq_exec (code : Code) (stack : Stack) (env : Environment) :
    Code.run functions code stack env =
      (exec functions code stack env).andThen fun stack env ↦ (stack.result, env) := by
  induction code generalizing stack env with
  | nil => rfl
  | cons i code ih =>
    rw [Code.run, exec_cons, Instruction.exec, Outcome.andThen_assoc]
    cases i.operation.step functions stack env with
    | ok next => exact ih next.1 next.2
    | error fault => rfl

/-- **Code that stands behind other code goes on where that has ended.** -/
theorem exec_append (c d : Code) (stack : Stack) (env : Environment) :
    exec functions (c ++ d) stack env =
      (exec functions c stack env).andThen (exec functions d) := by
  induction c generalizing stack env with
  | nil => rfl
  | cons i c ih =>
    rw [List.cons_append, exec_cons, exec_cons, Outcome.andThen_assoc]
    cases hi : i.exec functions stack env with
    | mk result env' =>
      cases result with
      | ok stack' => exact ih stack' env'
      | error fault => rfl

@[simp] theorem exec_singleton (i : Instruction) (stack : Stack) (env : Environment) :
    exec functions [i] stack env = i.exec functions stack env := by
  rw [exec_cons]
  rcases i.exec functions stack env with ⟨_ | _, _⟩ <;> rfl

/-- The instruction at a place goes on where the code before it has ended. -/
theorem exec_at {code : Code} {k : Nat} {i : Instruction} (hi : code[k]? = some i) (stack : Stack)
    (env : Environment) :
    exec functions code stack env =
      ((exec functions (code.take k) stack env).andThen (i.exec functions)).andThen
        (exec functions (code.drop (k + 1))) := by
  obtain ⟨hk, hget⟩ := List.getElem?_eq_some_iff.1 hi
  have hsplit : code = code.take k ++ i :: code.drop (k + 1) := by
    rw [← hget, ← List.drop_eq_getElem_cons hk, List.take_append_drop]
  rw [Outcome.andThen_assoc]
  conv_lhs => rw [hsplit]
  exact exec_append functions _ _ stack env

end Code

/-! ## How far an execution comes -/

/-- Executing code completes so many instructions and then stops: at the end, or before an
instruction that fails. -/
structure Code.StopsAfter (code : Code) (stack : Stack) (env : Environment) (k : Nat)
    (stack' : Stack) (env' : Environment) : Prop where
  le_length : k ≤ code.length
  /-- The instructions that are completed. -/
  exec_take : Code.exec functions (code.take k) stack env = (.ok stack', env')
  /-- The next instruction, if there is one, fails. -/
  fails : ∀ i, code[k]? = some i → ∃ fault, i.exec functions stack' env' = (.error fault, env')

/-- An instruction that fails changes nothing. -/
theorem Instruction.eq_of_exec_error {functions : List Builtin} {i : Instruction} {stack : Stack}
    {env env' : Environment} {fault : Fault} (h : i.exec functions stack env = (.error fault, env')) :
    env' = env := by
  rw [exec] at h
  split at h <;> cases h
  rfl

/-- **Every execution stops**, at the end of the code or before an instruction that fails. -/
theorem Code.exists_stopsAfter (code : Code) (stack : Stack) (env : Environment) :
    ∃ k stack' env', code.StopsAfter functions stack env k stack' env' := by
  induction code generalizing stack env with
  | nil => exact ⟨0, stack, env, Nat.le_refl _, rfl, fun _ h ↦ nomatch h⟩
  | cons i code ih =>
    cases hi : i.exec functions stack env with
    | mk result env₁ =>
      cases result with
      | error fault =>
        obtain rfl := Instruction.eq_of_exec_error hi
        refine ⟨0, stack, env₁, Nat.zero_le _, rfl, fun j hj ↦ ?_⟩
        obtain rfl := Option.some.inj hj
        exact ⟨fault, hi⟩
      | ok stack₁ =>
        obtain ⟨k, stack', env', hle, htake, hfails⟩ := ih stack₁ env₁
        refine ⟨k + 1, stack', env', Nat.succ_le_succ hle, ?_, hfails⟩
        rw [List.take_succ_cons, exec_cons, hi]
        exact htake

/-- What an execution comes to, told by where it stops. -/
theorem Code.StopsAfter.exec_eq {functions : List Builtin} {code : Code} {stack stack' : Stack}
    {env env' : Environment} {k : Nat} (h : code.StopsAfter functions stack env k stack' env') :
    (code[k]? = none ∧ Code.exec functions code stack env = (.ok stack', env')) ∨
      ∃ i fault, code[k]? = some i ∧ i.exec functions stack' env' = (.error fault, env') ∧
        Code.exec functions code stack env = (.error fault, env') := by
  cases hi : code[k]? with
  | none =>
    have hall := h.exec_take
    rw [List.take_of_length_le (List.getElem?_eq_none_iff.1 hi)] at hall
    exact .inl ⟨rfl, hall⟩
  | some i =>
    obtain ⟨fault, hfault⟩ := h.fails i hi
    refine .inr ⟨i, fault, rfl, hfault, ?_⟩
    rw [exec_at functions hi, h.exec_take, Outcome.andThen_ok, hfault, Outcome.andThen_error]

/-- A run ends where an instruction fails. -/
theorem Program.run_eq_error {p : Program} {k : Nat} {i : Instruction} (hi : p.code[k]? = some i)
    {stack : Stack} {env env' : Environment} {fault : Fault}
    (hbefore : Code.exec functions (p.code.take k) [] env = (.ok stack, env'))
    (hfail : i.exec functions stack env' = (.error fault, env')) :
    p.run functions env = (.error fault, env') := by
  rw [Program.run, Code.run_eq_exec, Code.exec_at functions hi, hbefore, Outcome.andThen_ok, hfail]
  rfl

/-! ## Names and slots stay -/

namespace Operation

variable {functions : List Builtin} {operation : Operation} {stack stack' : Stack}
  {env env' : Environment}

/-- An operation that names no slot does the same on every environment, and changes none. -/
theorem exists_step_eq (functions : List Builtin) (hslot : operation.slot? = none)
    (stack : Stack) :
    ∃ result : Except Fault Stack, ∀ env,
      operation.step functions stack env = result.map (·, env) := by
  cases operation with
  | load | store => cases hslot
  | constant value => exact ⟨.ok (value :: stack), fun _ ↦ rfl⟩
  | call code arity => exact ⟨callStep functions code arity stack, fun _ ↦ rfl⟩
  | discard =>
    cases stack with
    | nil => exact ⟨.error .outOfBounds, fun _ ↦ rfl⟩
    | cons value stack => exact ⟨.ok stack, fun _ ↦ rfl⟩
  | binary op =>
    rcases stack with _ | ⟨b, _ | ⟨a, stack⟩⟩
    · exact ⟨.error .outOfBounds, fun _ ↦ rfl⟩
    · exact ⟨.error .outOfBounds, fun _ ↦ rfl⟩
    · simp only [step]
      cases op.apply a b with
      | ok value => exact ⟨.ok (value :: stack), fun _ ↦ rfl⟩
      | error cause => exact ⟨.error (.ofCause cause), fun _ ↦ rfl⟩
  | negate =>
    cases stack with
    | nil => exact ⟨.error .outOfBounds, fun _ ↦ rfl⟩
    | cons a stack =>
      simp only [step]
      cases a.negate with
      | ok value => exact ⟨.ok (value :: stack), fun _ ↦ rfl⟩
      | error cause => exact ⟨.error (.ofCause cause), fun _ ↦ rfl⟩
  | blank => exact ⟨.error .blankConstant, fun _ ↦ rfl⟩
  | unassigned code => exact ⟨.error (.ofCause (.unassignedCode code)), fun _ ↦ rfl⟩
  | beyond => exact ⟨.error .outOfBounds, fun _ ↦ rfl⟩

/-- An operation that names no slot leaves the environment as it is. -/
theorem eq_of_step (hslot : operation.slot? = none)
    (h : operation.step functions stack env = .ok (stack', env')) : env' = env := by
  obtain ⟨result, hresult⟩ := exists_step_eq functions hslot stack
  rw [hresult] at h
  cases result with
  | ok next =>
    cases h
    rfl
  | error fault => cases h

/-- An operation changes neither names nor slots. -/
theorem keys_step (h : operation.step functions stack env = .ok (stack', env')) :
    env'.keys = env.keys ∧ env'.nextSlot = env.nextSlot := by
  cases operation with
  | load slot =>
    simp only [step] at h
    split at h
    · next hload => cases h; exact Environment.keys_load hload
    · cases h
  | store slot =>
    cases stack with
    | nil => cases h
    | cons value stack =>
      simp only [step] at h
      split at h
      · next hstore => cases h; exact Environment.keys_storeSlot hstore
      · cases h
  | _ => exact eq_of_step rfl h ▸ ⟨rfl, rfl⟩

end Operation

theorem Instruction.keys_exec (functions : List Builtin) (i : Instruction) (stack : Stack)
    (env : Environment) :
    (i.exec functions stack env).2.keys = env.keys ∧
      (i.exec functions stack env).2.nextSlot = env.nextSlot := by
  rw [exec]
  split
  · next hstep => exact Operation.keys_step hstep
  · exact ⟨rfl, rfl⟩

/-- **Executing code changes neither names nor slots.** -/
theorem Code.keys_exec (functions : List Builtin) (code : Code) (stack : Stack)
    (env : Environment) :
    (exec functions code stack env).2.keys = env.keys ∧
      (exec functions code stack env).2.nextSlot = env.nextSlot := by
  induction code generalizing stack env with
  | nil => exact ⟨rfl, rfl⟩
  | cons i code ih =>
    have hi := i.keys_exec functions stack env
    rw [exec_cons]
    cases hexec : i.exec functions stack env with
    | mk result env' =>
      rw [hexec] at hi
      cases result with
      | ok stack' => exact ⟨(ih stack' env').1.trans hi.1, (ih stack' env').2.trans hi.2⟩
      | error fault => exact hi

/-- A run changes neither names nor slots. -/
theorem Program.keys_run (functions : List Builtin) (p : Program) (env : Environment) :
    (p.run functions env).2.keys = env.keys ∧
      (p.run functions env).2.nextSlot = env.nextSlot := by
  have h := Code.keys_exec functions p.code [] env
  rw [Program.run, Code.run_eq_exec]
  cases hexec : Code.exec functions p.code [] env with
  | mk result env' =>
    rw [hexec] at h
    cases result with
    | ok stack => exact h
    | error fault => exact h

end Reckoner
