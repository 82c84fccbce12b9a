import Reckoner.Proofs.Program.Execution
import Mathlib.Data.Nat.Cast.Order.Ring
import Mathlib.Data.List.Forall2
import Mathlib.Data.List.Induction
import Mathlib.Algebra.Order.Ring.Int

/-!
# What a run does to the variables

An execution reads and writes variables through their slots, and does nothing else to them.  So what
has become of a variable can be told from the instructions that were completed alone:

* it has the value of the last of them that stores to its slot, which is the value that was on top
  of the stack there, or else the value it had before;
* it is active if it was before, or if one of them loads its slot.

`Variable.Became` says so of one variable, and `Code.forall₂_became` of all of them, place by place,
so that no variable comes, goes, or changes its name or slot.  `Instruction.touch` is the step: what
one instruction makes of a variable.
-/

set_option autoImplicit false

namespace Reckoner

/-! ## One instruction -/

/-- What an instruction that succeeds makes of a variable. -/
def Instruction.touch (i : Instruction) (stack : Stack) (v : Variable) : Variable :=
  match i.operation, stack with
  | .load slot, _ => if (v.slot : Int) = slot then { v with active := true } else v
  | .store slot, value :: _ => if (v.slot : Int) = slot then { v with value } else v
  | _, _ => v

namespace Instruction

variable {functions : List Builtin} {i : Instruction} {stack stack' : Stack}
  {env env' : Environment}

@[simp] theorem name_touch (i : Instruction) (stack : Stack) (v : Variable) :
    (i.touch stack v).name = v.name := by
  unfold touch
  split <;> (try split) <;> rfl

@[simp] theorem slot_touch (i : Instruction) (stack : Stack) (v : Variable) :
    (i.touch stack v).slot = v.slot := by
  unfold touch
  split <;> (try split) <;> rfl

/-- Only a store to its slot changes the value of a variable. -/
theorem value_touch_of_ne {v : Variable} (h : i.operation ≠ .store v.slot) :
    (i.touch stack v).value = v.value := by
  unfold touch
  split
  · split <;> rfl
  · next slot _ _ hoperation =>
    have hslot : ¬ (v.slot : Int) = slot := fun heq ↦ h (heq ▸ hoperation)
    rw [if_neg hslot]
  · rfl

/-- Only a load of its slot makes a variable active. -/
theorem active_touch {v : Variable} :
    (i.touch stack v).active = true ↔ v.active = true ∨ i.operation = .load v.slot := by
  unfold touch
  split
  · next slot hoperation =>
    by_cases hslot : (v.slot : Int) = slot
    · simp [hslot, hoperation]
    · simp [hslot, hoperation, Ne.symm hslot]
  · next hoperation => split <;> simp [hoperation]
  · next hload _ => exact ⟨.inl, fun h ↦ h.resolve_right (hload _)⟩

theorem updateWhere_slot {slot : Int} {w : Variable} (hfind : env.findSlot? slot = some w)
    (change : Variable → Variable) :
    env.updateWhere (·.slot == w.slot) change =
      { env with «variables» :=
          env.variables.map fun v ↦ if (v.slot : Int) = slot then change v else v } := by
  obtain ⟨_, rfl⟩ := Environment.findSlot?_mem hfind
  simp only [Environment.updateWhere, beq_iff_eq, Nat.cast_inj]

/-- **The step**: an instruction touches every variable, and does nothing else to the
environment. -/
theorem eq_of_exec_ok (h : i.exec functions stack env = (.ok stack', env')) :
    env' = { env with «variables» := env.variables.map (i.touch stack) } := by
  obtain ⟨operation, position⟩ := i
  rw [exec] at h
  split at h
  · next next hstep =>
    cases h
    cases operation with
    | load slot =>
      simp only [Operation.step, Environment.load] at hstep
      cases hfind : env.findSlot? slot with
      | none => simp [hfind] at hstep
      | some w =>
        simp only [hfind, Option.map_some, Except.ok.injEq, Prod.mk.injEq] at hstep
        rw [← hstep.2, Environment.activate, updateWhere_slot hfind]
        rfl
    | store slot =>
      cases stack with
      | nil => cases hstep
      | cons value below =>
        simp only [Operation.step, Environment.storeSlot] at hstep
        cases hfind : env.findSlot? slot with
        | none => simp [hfind] at hstep
        | some w =>
          simp only [hfind, Option.map_some, Except.ok.injEq, Prod.mk.injEq] at hstep
          rw [← hstep.2, updateWhere_slot hfind]
          rfl
    | _ =>
      rw [Operation.eq_of_step rfl hstep]
      exact congrArg (Environment.mk · env.nextSlot) (List.map_id env.variables).symm
  · cases h

end Instruction

/-! ## All instructions that were completed -/

/-- What code that was executed to its end has made of a variable. -/
structure Variable.Became (functions : List Builtin) (done : Code) (stack : Stack)
    (env : Environment) (v v' : Variable) : Prop where
  name_eq : v'.name = v.name
  slot_eq : v'.slot = v.slot
  /-- Nothing was stored to the slot, and the value is the one from before. -/
  value_eq : (∀ i ∈ done, i.operation ≠ .store v.slot) → v'.value = v.value
  /-- The value is the one that was on top of the stack when the slot was last stored to. -/
  value_stored : ∀ before i after, done = before ++ i :: after → i.operation = .store v.slot →
    (∀ j ∈ after, j.operation ≠ .store v.slot) →
    ∃ below env', Code.exec functions before stack env = (.ok (v'.value :: below), env')
  /-- The variable was active before, or the slot was loaded. -/
  active_iff : v'.active = true ↔ v.active = true ∨ ∃ i ∈ done, i.operation = .load v.slot

namespace Variable.Became

variable {functions : List Builtin} {done : Code} {stack stack' : Stack}
  {env env' env'' : Environment} {v v' : Variable}

theorem nil (functions : List Builtin) (stack : Stack) (env : Environment) (v : Variable) :
    Became functions [] stack env v v where
  name_eq := rfl
  slot_eq := rfl
  value_eq _ := rfl
  value_stored before i after h := by simp at h
  active_iff := by simp

/-- The instruction that is completed next adds what it does to the variable. -/
theorem concat (h : Became functions done stack env v v')
    (hdone : Code.exec functions done stack env = (.ok stack', env')) {i : Instruction}
    {stack'' : Stack} (hi : i.exec functions stack' env' = (.ok stack'', env'')) :
    Became functions (done ++ [i]) stack env v (i.touch stack' v') where
  name_eq := (i.name_touch stack' v').trans h.name_eq
  slot_eq := (i.slot_touch stack' v').trans h.slot_eq
  value_eq hnone := by
    obtain ⟨hdone, hlast⟩ := List.forall_mem_append.1 hnone
    have hlast := hlast i (List.mem_singleton_self i)
    rw [i.value_touch_of_ne (h.slot_eq ▸ hlast), h.value_eq hdone]
  value_stored before j after heq hstore hafter := by
    obtain rfl | ⟨rest, last, rfl⟩ := List.eq_nil_or_concat' after
    · -- The instruction is the last that stores.
      obtain ⟨rfl, hlast⟩ := List.append_inj' heq rfl
      obtain rfl := List.singleton_injective hlast
      have hslot : i.operation = .store v'.slot := h.slot_eq ▸ hstore
      obtain ⟨value, below, rfl⟩ : ∃ value below, stack' = value :: below := by
        cases stack' with
        | nil => simp [Instruction.exec, hslot, Operation.step] at hi
        | cons value below => exact ⟨value, below, rfl⟩
      refine ⟨below, env', ?_⟩
      simpa [Instruction.touch, hslot] using hdone
    · rw [← List.cons_append, ← List.append_assoc] at heq
      obtain ⟨rfl, hlast⟩ := List.append_inj' heq rfl
      obtain rfl := List.singleton_injective hlast
      obtain ⟨hrest, hnot⟩ := List.forall_mem_append.1 hafter
      have hnot := hnot i (List.mem_singleton_self i)
      rw [i.value_touch_of_ne (h.slot_eq ▸ hnot)]
      exact h.value_stored before j rest rfl hstore hrest
  active_iff := by
    rw [i.active_touch, h.active_iff, h.slot_eq]
    simp only [List.mem_append, List.mem_singleton, or_and_right, exists_or, exists_eq_left,
      or_assoc]

end Variable.Became

/-- **The run**: code that was executed to its end has made of each variable, place by place, what
its instructions tell. -/
theorem Code.forall₂_became {functions : List Builtin} {done : Code} {stack stack' : Stack}
    {env env' : Environment} (h : Code.exec functions done stack env = (.ok stack', env')) :
    List.Forall₂ (Variable.Became functions done stack env) env.variables env'.variables := by
  induction done using List.reverseRecOn generalizing stack' env' with
  | nil =>
    cases h
    exact List.forall₂_same.2 fun v _ ↦ .nil functions stack env v
  | append_singleton done i ih =>
    rw [Code.exec_append] at h
    obtain ⟨stack₁, env₁, hdone, hi⟩ := Outcome.andThen_eq_ok h
    rw [Code.exec_singleton] at hi
    rw [Instruction.eq_of_exec_ok hi, List.forall₂_map_right_iff]
    exact (ih hdone).imp fun _ _ hbefore ↦ hbefore.concat hdone hi

end Reckoner
