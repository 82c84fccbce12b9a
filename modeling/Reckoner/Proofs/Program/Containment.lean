import Reckoner.Proofs.Program.Depth
import Reckoner.Proofs.Program.Kinds

/-!
# No error of a primitive escapes

`Contained` says of a computation that it fails with evaluation errors only, and only with errors of
the four kinds that tell what an expression did wrong.  Whatever lawful arithmetic a machine has:

* operators are contained at all operands (`Arithmetic.Lawful.binary`), because they make a value,
  an error about numbers or a type error (`Arithmetic.Lawful.yields`);
* functions are contained if they have their arguments (`Arithmetic.Lawful.apply`);
* an operation is contained if its operands are on the stack and a call finds a function that takes
  as many arguments (`Arithmetic.Lawful.step`).

`Arithmetic.Lawful.exec` is what follows for code: it executes to its end, or up to an instruction
that fails with such an error (`Arithmetic.Fails`).
-/

set_option autoImplicit false

namespace Reckoner

namespace ErrorKind

/-- The kinds of errors for which an expression is to blame when it is evaluated. -/
def ofExpressions : List ErrorKind := [divideByZero, numericDomain, unknownSlot, typeMismatch]

end ErrorKind

/-- The kind of a cause is one of these, or the one that tells no more than that it is an evaluation
error. -/
theorem EvalCause.kind_mem_ofExpressions {cause : EvalCause} (h : cause.kind ≠ .evaluation) :
    cause.kind ∈ ErrorKind.ofExpressions := by
  cases cause with
  | unassignedCode | valuesLeft => exact absurd rfl h
  | _ => simp [kind, ErrorKind.ofExpressions]

/-- A computation that fails with evaluation errors of these kinds only. -/
def Contained {α : Type} (result : Except Raised α) : Prop :=
  ∀ raised, result = .error raised →
    ∃ cause : EvalCause, raised = .fault (.ofCause cause) ∧ cause.kind ∈ ErrorKind.ofExpressions

section

variable {α β : Type}

theorem contained_ok (a : α) : Contained (.ok a) := fun _ h ↦ nomatch h

theorem contained_fail {cause : EvalCause} (h : cause.kind ≠ .evaluation) :
    Contained (Arithmetic.fail cause : Except Raised α) := by
  rintro raised ⟨⟩
  exact ⟨cause, rfl, EvalCause.kind_mem_ofExpressions h⟩

theorem Contained.bind {x : Except Raised α} {f : α → Except Raised β} (hx : Contained x)
    (hf : ∀ a, x = .ok a → Contained (f a)) : Contained (x >>= f) := by
  cases x with
  | error raised =>
    intro raised' h
    exact hx raised' (congrArg _ (Except.error.inj h))
  | ok a => exact hf a rfl

theorem Contained.map {x : Except Raised α} (hx : Contained x) (f : α → β) :
    Contained (x.map f) := by
  cases x with
  | error raised =>
    intro raised' h
    exact hx raised' (congrArg _ (Except.error.inj h))
  | ok a => exact contained_ok _

/-- A primitive needs no handler where it does not raise. -/
theorem contained_unguarded {result : Except Trap α} (h : ∃ a, result = .ok a) :
    Contained (Arithmetic.unguarded result) := by
  obtain ⟨a, rfl⟩ := h
  exact contained_ok a

end

namespace Arithmetic

variable {A : Arithmetic}

/-! ## Operators -/

/-- An error about numbers is one of these. -/
theorem Yields.contained {k : Kind} {result : Except Raised Value} (h : Yields k result) :
    Contained result := by
  cases h with
  | value => exact contained_ok _
  | fail hnumeric => exact contained_fail (by rcases hnumeric with h | h <;> simp [h])

/-- **Operators are contained.** -/
theorem Lawful.binary (hA : A.Lawful) (op : Operator) (a b : Value) :
    Contained (A.binary op a b) := by
  by_cases htakes : op.Takes a.kind b.kind
  · exact (hA.yields htakes).contained
  by_cases hhides : op.HidesText a b
  · obtain ⟨w, _, hfail⟩ := A.binary_of_hidesText hhides
    rw [hfail]
    exact contained_fail (by simp [EvalCause.kind])
  · rw [A.binary_of_not_takes htakes hhides]
    exact contained_fail (by simp [EvalCause.kind])

/-! ## Functions -/

section

variable {function : Builtin} {args : List Value} {i : Nat}

theorem contained_argument (h : i < args.length) : Contained (total (Builtin.argument args i)) := by
  rw [Builtin.argument, List.getElem?_eq_getElem h]
  exact contained_ok _

theorem contained_scalarArgument (v : Value) : Contained (total (function.scalarArgument v)) := by
  cases v with
  | scalar x => exact contained_ok x
  | vector | text => exact contained_fail (by simp [EvalCause.kind])

theorem contained_vectorArgument (v : Value) : Contained (total (function.vectorArgument v)) := by
  cases v with
  | vector a => exact contained_ok a
  | scalar | text => exact contained_fail (by simp [EvalCause.kind])

/-- An argument that is there is a scalar, or is refused for its kind. -/
theorem contained_scalar (h : i < args.length) : Contained (total (function.scalar args i)) := by
  rw [Builtin.scalar, total_bind]
  exact (contained_argument h).bind fun v _ ↦ contained_scalarArgument v

/-- An argument that is there is a vector, or is refused for its kind. -/
theorem contained_vector (h : i < args.length) : Contained (total (function.vector args i)) := by
  rw [Builtin.vector, total_bind]
  exact (contained_argument h).bind fun v _ ↦ contained_vectorArgument v

theorem contained_applyScalars (f : Float → Float → Float) (h : args.length = 2) :
    Contained (total (function.applyScalars f args)) := by
  rw [Builtin.applyScalars, total_bind]
  refine (contained_scalar (by omega)).bind fun a _ ↦ ?_
  rw [total_bind]
  exact (contained_scalar (by omega)).bind fun b _ ↦ contained_ok _

theorem contained_applyVectors (f : Vec3 → Vec3 → Value) (h : args.length = 2) :
    Contained (total (function.applyVectors f args)) := by
  rw [Builtin.applyVectors, total_bind]
  refine (contained_vector (by omega)).bind fun a _ ↦ ?_
  rw [total_bind]
  exact (contained_vector (by omega)).bind fun b _ ↦ contained_ok _

end

variable {args : List Value}

/-- Functions of a real raise what their handler handles: a reciprocal divides by no zero. -/
theorem Lawful.function (hA : A.Lawful) {function : RealFunction} {x : Float} {t : Trap}
    (h : A.function function x = .error t) : t = .value ∨ t = .overflow := by
  have hreciprocal : ∀ g, A.reciprocal g x = .error t → t = .value ∨ t = .overflow := by
    intro g hg
    rw [reciprocal] at hg
    cases hreal : A.real g x with
    | error t' =>
      rw [hreal] at hg
      cases hg
      exact hA.real hreal
    | ok y =>
      have hy : (if y == 0.0 then .error .value else A.divide 1.0 y) = .error t := by
        rw [hreal] at hg
        exact hg
      split at hy
      · exact .inl (Except.error.inj hy).symm
      · next hne =>
        obtain ⟨z, hz⟩ := hA.divide 1.0 (Bool.eq_false_iff.2 hne)
        rw [hz] at hy
        cases hy
  cases function with
  | cot | cotd | csc | cscd | sec | secd => exact hreciprocal _ h
  | _ => exact hA.real h

theorem Lawful.applyReal (hA : A.Lawful) (function : RealFunction) (h : args.length = 1) :
    Contained (A.applyReal function args) := by
  refine (contained_scalar (by omega)).bind fun x _ ↦ ?_
  split
  · exact contained_ok _
  · exact contained_fail (by simp [RealFunction.cause, EvalCause.kind])
  · exact contained_fail (by simp [RealFunction.cause, EvalCause.kind])
  · next t hvalue hoverflow hfunction =>
    rcases hA.function hfunction with rfl | rfl
    · exact absurd rfl hvalue
    · exact absurd rfl hoverflow

theorem Lawful.applyAbs (hA : A.Lawful) (h : args.length = 1) : Contained (A.applyAbs args) := by
  obtain ⟨v, rfl⟩ := List.length_eq_one_iff.1 h
  cases v with
  | vector a => exact (contained_unguarded (hA.length a)).bind fun z _ ↦ contained_ok _
  | scalar x => exact contained_ok _
  | text s => exact contained_fail (by simp [EvalCause.kind])

/-- **Functions that have their arguments are contained.** -/
theorem Lawful.apply (hA : A.Lawful) (function : Builtin) (h : args.length = function.arity) :
    Contained (A.apply function args) := by
  cases function with
  | real function => exact hA.applyReal function h
  | abs => exact hA.applyAbs h
  | atan2 =>
    have h : args.length = 2 := h
    exact (contained_scalar (by omega)).bind fun y _ ↦
      (contained_scalar (by omega)).bind fun x _ ↦
        (contained_unguarded (hA.atan2 y x)).bind fun z _ ↦ contained_ok _
  | inv =>
    have h : args.length = 1 := h
    refine (contained_scalar (by omega)).bind fun x _ ↦ ?_
    split
    · exact contained_fail (by simp [EvalCause.kind])
    · next hx =>
      exact (contained_unguarded (hA.divide _ (Bool.eq_false_iff.2 hx))).bind fun z _ ↦
        contained_ok _
  | cross | dot => exact contained_applyVectors _ h
  | max | min => exact contained_applyScalars _ h
  | vec3d =>
    have h : args.length = 3 := h
    show Contained (total (Builtin.applyVec3d args))
    rw [Builtin.applyVec3d, total_bind]
    refine (contained_scalar (by omega)).bind fun x _ ↦ ?_
    rw [total_bind]
    refine (contained_scalar (by omega)).bind fun y _ ↦ ?_
    rw [total_bind]
    exact (contained_scalar (by omega)).bind fun z _ ↦ contained_ok _

end Arithmetic

/-! ## Code -/

/-- An operation of compiled code.  A call finds a function at its code, which takes as many
arguments as the call has. -/
def Operation.Compiled (functions : List Builtin) : Operation → Prop
  | call code arity => ∃ b, functionAt? functions code = some b ∧ arity = b.arity
  | blank | unassigned _ | beyond => False
  | _ => True

/-- Code executes up to an instruction, and this instruction fails with an evaluation error. -/
def Code.Fails (functions : List Builtin) (code : Code) (stack : Stack) (env : Environment)
    (i : Instruction) (cause : EvalCause) (env' : Environment) : Prop :=
  ∃ before after stack', code = before ++ i :: after ∧
    Code.exec functions before stack env = (.ok stack', env') ∧
    i.operation.step functions stack' env' = .error (.ofCause cause)

namespace Arithmetic

variable {A : Arithmetic} {functions : List Builtin} {operation : Operation} {stack : Stack}
  {env : Environment}

theorem Lawful.callStep (hA : A.Lawful) {code arity : Int}
    (hcompiled : (Operation.call code arity).Compiled functions) (hle : arity ≤ stack.length) :
    Contained (A.callStep functions code arity stack) := by
  obtain ⟨b, hb, rfl⟩ := hcompiled
  have hcount : argumentCount stack.length b.arity = b.arity := by
    rw [argumentCount, if_pos (Int.natCast_nonneg _), Int.toNat_natCast]
  rw [Arithmetic.callStep]
  simp only [hb, hcount]
  refine (hA.apply b ?_).map _
  rw [List.length_reverse, List.length_take, Nat.min_eq_left (by exact_mod_cast hle)]

/-- **Operations of compiled code are contained**, if their operands are on the stack. -/
theorem Lawful.step (hA : A.Lawful) (hcompiled : operation.Compiled functions)
    (hle : operation.operands ≤ stack.length) :
    Contained (A.step functions operation stack env) := by
  cases operation with
  | constant value => exact contained_ok _
  | load slot =>
    show Contained (total (Operation.step functions (.load slot) stack env))
    rw [Operation.step]
    split
    · exact contained_ok _
    · exact contained_fail (by simp [EvalCause.kind])
  | store slot =>
    rcases stack with _ | ⟨value, stack⟩
    · exact absurd hle (by simp [Operation.operands])
    show Contained (total (Operation.step functions (.store slot) (value :: stack) env))
    rw [Operation.step]
    split
    · exact contained_ok _
    · exact contained_fail (by simp [EvalCause.kind])
  | discard =>
    rcases stack with _ | ⟨value, stack⟩
    · exact absurd hle (by simp [Operation.operands])
    exact contained_ok _
  | binary op =>
    rcases stack with _ | ⟨b, _ | ⟨a, stack⟩⟩
    · exact absurd hle (by simp [Operation.operands])
    · exact absurd hle (by simp [Operation.operands])
    exact (hA.binary op a b).map _
  | negate =>
    rcases stack with _ | ⟨value, stack⟩
    · exact absurd hle (by simp [Operation.operands])
    show Contained (total (Operation.step functions .negate (value :: stack) env))
    cases value with
    | scalar x => exact contained_ok _
    | vector a => exact contained_ok _
    | text s => exact contained_fail (by simp [EvalCause.kind])
  | call code arity => exact (hA.callStep hcompiled hle).map _
  | blank | unassigned | beyond => exact hcompiled.elim

theorem exists_of_map_eq_ok {α β : Type} {x : Except Raised α} {f : α → β} {b : β}
    (h : x.map f = .ok b) : ∃ a, x = .ok a ∧ f a = b := by
  cases x with
  | error raised => cases h
  | ok a => exact ⟨a, rfl, Except.ok.inj h⟩

/-- An operation changes the depth of the stack by its effect, whatever the arithmetic. -/
theorem length_step {stack' : Stack} {env' : Environment} (h0 : 0 ≤ operation.operands)
    (hle : operation.operands ≤ stack.length)
    (h : A.step functions operation stack env = .ok (stack', env')) :
    (stack'.length : Int) = stack.length + operation.effect := by
  cases operation with
  | binary op =>
    rcases stack with _ | ⟨b, _ | ⟨a, stack⟩⟩
    · exact absurd hle (by simp [Operation.operands])
    · exact absurd hle (by simp [Operation.operands])
    obtain ⟨value, _, hnext⟩ := exists_of_map_eq_ok h
    cases hnext
    simp only [List.length_cons, Operation.effect]
    omega
  | call code arity =>
    obtain ⟨next, hcall, hnext⟩ := exists_of_map_eq_ok h
    cases hnext
    rw [callStep] at hcall
    split at hcall
    · obtain ⟨value, _, rfl⟩ := exists_of_map_eq_ok hcall
      have h0 : 0 ≤ arity := h0
      have hle : arity ≤ stack.length := hle
      rw [argumentCount, if_pos h0, List.length_cons, List.length_drop, Operation.effect]
      omega
    · cases hcall
  | _ => exact Operation.length_step h0 hle (total_eq_ok.1 h)

/-- Code that has executed goes on with what follows. -/
theorem exec_append {before : Code} {stack' : Stack} {env' : Environment}
    (h : A.exec functions before stack env = (.ok stack', env')) (rest : Code) :
    A.exec functions (before ++ rest) stack env = A.exec functions rest stack' env' := by
  induction before generalizing stack env with
  | nil =>
    cases h
    rfl
  | cons i before ih =>
    rw [List.cons_append, Arithmetic.exec]
    cases hstep : A.step functions i.operation stack env with
    | error raised =>
      rw [Arithmetic.exec, hstep] at h
      cases h
    | ok next =>
      rw [Arithmetic.exec, hstep] at h
      exact ih h

/-- `Code.Fails` with an arithmetic that may raise. -/
def Fails (A : Arithmetic) (functions : List Builtin) (code : Code) (stack : Stack)
    (env : Environment) (i : Instruction) (cause : EvalCause) (env' : Environment) : Prop :=
  ∃ before after stack', code = before ++ i :: after ∧
    A.exec functions before stack env = (.ok stack', env') ∧
    A.step functions i.operation stack' env' = .error (.fault (.ofCause cause))

section

variable {code : Code} {i : Instruction} {cause : EvalCause} {env' : Environment}

/-- With the standard arithmetic the same instruction fails in the same way. -/
theorem fails_standard :
    standard.Fails functions code stack env i cause env' ↔
      Code.Fails functions code stack env i cause env' := by
  have hexec (before : Code) (stack' : Stack) :
      standard.exec functions before stack env = (.ok stack', env') ↔
        Code.exec functions before stack env = (.ok stack', env') := by
    rw [exec_standard, Prod.ext_iff, Prod.ext_iff, total_eq_ok]
  have hstep (stack' : Stack) :
      standard.step functions i.operation stack' env' = .error (.fault (.ofCause cause)) ↔
        i.operation.step functions stack' env' = .error (.ofCause cause) := by
    rw [step_standard, total_eq_error]
  simp only [Fails, Code.Fails, hexec, hstep]

theorem Fails.mem (h : A.Fails functions code stack env i cause env') : i ∈ code := by
  obtain ⟨before, after, _, rfl, _⟩ := h
  exact List.mem_append_right _ (List.mem_cons_self ..)

/-- The error tells the position of the instruction that failed. -/
theorem Fails.exec (h : A.Fails functions code stack env i cause env') :
    A.exec functions code stack env =
      (.error (.fault (.eval cause (some i.position))), env') := by
  obtain ⟨before, after, stack', rfl, hbefore, hstep⟩ := h
  rw [exec_append hbefore, Arithmetic.exec, hstep]
  rfl

theorem Fails.cons {j : Instruction} {stack₁ : Stack} {env₁ : Environment}
    (hstep : A.step functions j.operation stack env = .ok (stack₁, env₁))
    (h : A.Fails functions code stack₁ env₁ i cause env') :
    A.Fails functions (j :: code) stack env i cause env' := by
  obtain ⟨before, after, stack', rfl, hbefore, hlast⟩ := h
  refine ⟨j :: before, after, stack', rfl, ?_, hlast⟩
  rw [Arithmetic.exec, hstep]
  exact hbefore

end

/-- **Code whose operations are contained executes to its end, or up to an instruction that fails
with an evaluation error of an expression.** -/
theorem Lawful.exec (hA : A.Lawful) {code : Code}
    (hcompiled : ∀ i ∈ code, i.operation.Compiled functions) (stack : Stack) (env : Environment)
    (hsupplied : Code.Supplied code stack.length) :
    (∃ stack' env', A.exec functions code stack env = (.ok stack', env') ∧
      (stack'.length : Int) = stack.length + Code.effect code) ∨
    ∃ i cause env', A.Fails functions code stack env i cause env' ∧
      cause.kind ∈ ErrorKind.ofExpressions := by
  induction code generalizing stack env with
  | nil => exact .inl ⟨stack, env, rfl, by simp⟩
  | cons i code ih =>
    obtain ⟨hi, hcode⟩ := List.forall_mem_cons.1 hcompiled
    obtain ⟨⟨h0, hle⟩, hsupplied⟩ := hsupplied
    cases hstep : A.step functions i.operation stack env with
    | error raised =>
      obtain ⟨cause, rfl, hkind⟩ := hA.step hi hle raised hstep
      exact .inr ⟨i, cause, env, ⟨[], code, stack, rfl, rfl, hstep⟩, hkind⟩
    | ok next =>
      obtain ⟨stack₁, env₁⟩ := next
      have hlength := length_step h0 hle hstep
      rcases ih hcode stack₁ env₁ (hlength ▸ hsupplied) with ⟨stack', env', hrest, hlength'⟩ |
        ⟨j, cause, env', hfails, hkind⟩
      · refine .inl ⟨stack', env', ?_, ?_⟩
        · rw [Arithmetic.exec, hstep]
          exact hrest
        · rw [hlength', hlength, Code.effect_cons, add_assoc]
      · exact .inr ⟨j, cause, env', hfails.cons hstep, hkind⟩

end Arithmetic

end Reckoner
