import Reckoner.Proofs.Program.Execution
import Mathlib.Order.Bounds.Basic
import Mathlib.Algebra.Order.Group.Int

/-!
# How deep the stack is

`Operation.effect` tells what an operation adds to the depth of the stack, and
`Operation.operands` how many values it needs there.  For a piece of code this gives three things
that can be read off without running it:

* `Code.effect` is the sum of the effects;
* `Code.Supplied` says that no instruction finds less on the stack than it needs;
* `Code.peak` is the greatest depth between the instructions.

Each of them has a lemma for code that is put together from two pieces.  `Code.length_exec` is the
link to a run: code that is supplied leaves a stack of the depth that its effect foretells.
-/

set_option autoImplicit false

namespace Reckoner

namespace Operation

/-- The number of values that an operation takes from the stack, or looks at. -/
def operands : Operation → Int
  | constant _ | load _ | blank | unassigned _ | beyond => 0
  | store _ | discard | negate => 1
  | binary _ => 2
  | call _ arity => arity

/-- A call takes as many arguments as it should, if they are there. -/
theorem length_callStep {functions : List Builtin} {code arity : Int} {stack stack' : Stack}
    (h0 : 0 ≤ arity) (hle : arity ≤ stack.length)
    (h : callStep functions code arity stack = .ok stack') :
    (stack'.length : Int) = stack.length + (1 - arity) := by
  unfold callStep at h
  split at h
  · next function _ =>
    cases happly : function.apply (stack.take (argumentCount stack.length arity)).reverse with
    | error fault => simp [happly, bind, Except.bind] at h
    | ok value =>
      simp only [happly, bind, Except.bind, pure, Except.pure, Except.ok.injEq] at h
      subst h
      rw [argumentCount, if_pos h0, List.length_cons, List.length_drop]
      omega
  · cases h

/-- **An operation that has its operands changes the depth of the stack by its effect.** -/
theorem length_step {functions : List Builtin} {operation : Operation} {stack stack' : Stack}
    {env env' : Environment} (h0 : 0 ≤ operation.operands)
    (hle : operation.operands ≤ stack.length)
    (h : operation.step functions stack env = .ok (stack', env')) :
    (stack'.length : Int) = stack.length + operation.effect := by
  cases operation with
  | constant value => cases h; simp [effect]
  | load slot =>
    simp only [step] at h
    split at h <;> cases h
    simp [effect]
  | store slot =>
    cases stack with
    | nil => cases h
    | cons value stack =>
      simp only [step] at h
      split at h <;> cases h
      simp [effect]
  | discard =>
    cases stack with
    | nil => cases h
    | cons value stack => cases h; simp only [List.length_cons, effect]; omega
  | binary op =>
    rcases stack with _ | ⟨b, _ | ⟨a, stack⟩⟩
    · cases h
    · cases h
    · simp only [step] at h
      split at h <;> cases h
      simp only [List.length_cons, effect]
      omega
  | negate =>
    cases stack with
    | nil => cases h
    | cons a stack =>
      simp only [step] at h
      split at h <;> cases h
      simp [effect]
  | call code arity =>
    simp only [step] at h
    cases hcall : callStep functions code arity stack with
    | error fault => rw [hcall] at h; cases h
    | ok next =>
      rw [hcall] at h
      cases h
      exact length_callStep h0 hle hcall
  | blank | unassigned | beyond => cases h

end Operation

namespace Code

/-! ## The effect of code -/

/-- The change of the stack's depth: the sum of the effects of the operations. -/
def effect : Code → Int
  | [] => 0
  | i :: code => i.operation.effect + effect code

@[simp] theorem effect_nil : effect [] = 0 := rfl

@[simp] theorem effect_cons (i : Instruction) (code : Code) :
    effect (i :: code) = i.operation.effect + effect code := rfl

@[simp] theorem effect_append (c d : Code) : effect (c ++ d) = effect c + effect d := by
  induction c with
  | nil => simp
  | cons i c ih => rw [List.cons_append, effect_cons, ih, effect_cons, add_assoc]

/-! ## Operands are there -/

/-- From the given depth on, no instruction finds less on the stack than it needs. -/
def Supplied : Code → Int → Prop
  | [], _ => True
  | i :: code, depth =>
    (0 ≤ i.operation.operands ∧ i.operation.operands ≤ depth) ∧
      Supplied code (depth + i.operation.effect)

@[simp] theorem supplied_nil (depth : Int) : Supplied [] depth := trivial

@[simp] theorem supplied_cons {i : Instruction} {code : Code} {depth : Int} :
    Supplied (i :: code) depth ↔ (0 ≤ i.operation.operands ∧ i.operation.operands ≤ depth) ∧
      Supplied code (depth + i.operation.effect) := Iff.rfl

@[simp] theorem supplied_append {c d : Code} {depth : Int} :
    Supplied (c ++ d) depth ↔ Supplied c depth ∧ Supplied d (depth + effect c) := by
  induction c generalizing depth with
  | nil => simp
  | cons i c ih =>
    rw [List.cons_append, supplied_cons, supplied_cons, ih, effect_cons, ← and_assoc, add_assoc]

/-- The operands of each instruction are there when its turn comes. -/
theorem Supplied.operands {code : Code} {depth : Int} (h : Supplied code depth) {k : Nat}
    {i : Instruction} (hi : code[k]? = some i) :
    0 ≤ i.operation.operands ∧ i.operation.operands ≤ depth + effect (code.take k) := by
  obtain ⟨hk, rfl⟩ := List.getElem?_eq_some_iff.1 hi
  rw [← List.take_append_drop k code, List.drop_eq_getElem_cons hk, supplied_append] at h
  exact h.2.1

theorem Supplied.take {code : Code} {depth : Int} (h : Supplied code depth) (k : Nat) :
    Supplied (code.take k) depth := by
  rw [← List.take_append_drop k code, supplied_append] at h
  exact h.1

/-- **Code that is supplied leaves a stack of the depth that its effect foretells.** -/
theorem length_exec {functions : List Builtin} {code : Code} {stack stack' : Stack}
    {env env' : Environment} (hs : Supplied code stack.length)
    (h : exec functions code stack env = (.ok stack', env')) :
    (stack'.length : Int) = stack.length + effect code := by
  induction code generalizing stack env with
  | nil => cases h; simp
  | cons i code ih =>
    rw [exec_cons] at h
    obtain ⟨stack₁, env₁, hi, hcode⟩ := Outcome.andThen_eq_ok h
    have hlength : (stack₁.length : Int) = stack.length + i.operation.effect := by
      rw [Instruction.exec] at hi
      split at hi
      · next hstep => cases hi; exact Operation.length_step hs.1.1 hs.1.2 hstep
      · cases hi
    rw [ih (hlength ▸ hs.2) hcode, hlength, effect_cons, add_assoc]

/-! ## The greatest depth -/

/-- The greatest depth of the stack between the instructions, from the given depth on. -/
def peak : Code → Int → Int
  | [], depth => depth
  | i :: code, depth => max depth (peak code (depth + i.operation.effect))

@[simp] theorem peak_nil (depth : Int) : peak [] depth = depth := rfl

@[simp] theorem peak_cons (i : Instruction) (code : Code) (depth : Int) :
    peak (i :: code) depth = max depth (peak code (depth + i.operation.effect)) := rfl

/-- No point of the code is deeper than the greatest depth, the end included. -/
theorem effect_take_le_peak (code : Code) (depth : Int) (k : Nat) :
    depth + effect (code.take k) ≤ peak code depth := by
  induction code generalizing depth k with
  | nil => simp
  | cons i code ih =>
    cases k with
    | zero => simp
    | succ k =>
      rw [List.take_succ_cons, effect_cons, peak_cons, ← add_assoc]
      exact le_max_of_le_right (ih _ k)

theorem effect_le_peak (code : Code) (depth : Int) : depth + effect code ≤ peak code depth := by
  have h := effect_take_le_peak code depth code.length
  rwa [List.take_length] at h

/-- The greatest depth is reached at some point of the code. -/
theorem exists_effect_take_eq_peak (code : Code) (depth : Int) :
    ∃ k ≤ code.length, depth + effect (code.take k) = peak code depth := by
  induction code generalizing depth with
  | nil => exact ⟨0, le_rfl, by simp⟩
  | cons i code ih =>
    rcases le_total (peak code (depth + i.operation.effect)) depth with hle | hle
    · exact ⟨0, Nat.zero_le _, by simp [hle]⟩
    · obtain ⟨k, hk, heq⟩ := ih (depth + i.operation.effect)
      refine ⟨k + 1, Nat.succ_le_succ hk, ?_⟩
      rw [List.take_succ_cons, effect_cons, ← add_assoc, heq, peak_cons, max_eq_right hle]

@[simp] theorem peak_append (c d : Code) (depth : Int) :
    peak (c ++ d) depth = max (peak c depth) (peak d (depth + effect c)) := by
  induction c generalizing depth with
  | nil =>
    have hd := effect_take_le_peak d depth 0
    simp only [List.take_zero, effect_nil, add_zero] at hd
    simp [hd]
  | cons i c ih =>
    rw [List.cons_append, peak_cons, ih, peak_cons, effect_cons, max_assoc, add_assoc]

/-- **The greatest depth is the greatest of the sums of effects of the beginnings.** -/
theorem isGreatest_peak (code : Code) :
    IsGreatest {d : Int | ∃ k ≤ code.length, d = effect (code.take k)} (peak code 0) := by
  refine ⟨?_, ?_⟩
  · obtain ⟨k, hk, heq⟩ := exists_effect_take_eq_peak code 0
    exact ⟨k, hk, by rw [← heq, zero_add]⟩
  · rintro d ⟨k, _, rfl⟩
    simpa using effect_take_le_peak code 0 k

end Code

end Reckoner
