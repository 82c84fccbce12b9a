import Reckoner.Proofs.Program.Execution

/-!
# What a program depends on

`Program.slots` lists the slots that a program reads or writes (`Program.mem_slots_iff`).  Nothing
else of an environment matters to a run: `Environment.AgreeOn` says of two environments that each of
certain slots is retired in both or has one value in both, and such environments cannot be told
apart by code that keeps to these slots.

`Instruction.agreeOn_exec` is the step and `Code.agreeOn_exec` the whole code.  Both say that two
executions that start alike come to the same result and leave behind environments that agree again,
whether they fail or not.  `Program.run_of_agreeOn` is the conclusion.
-/

set_option autoImplicit false

namespace Reckoner

namespace Environment

/-- The value of the variable that owns a slot. -/
def slotValue? (env : Environment) (slot : Int) : Option Value :=
  (env.findSlot? slot).map (·.value)

/-- Each of the slots is retired in both environments, or has one value in both. -/
def AgreeOn (slots : List Int) (env env' : Environment) : Prop :=
  ∀ slot ∈ slots, env.slotValue? slot = env'.slotValue? slot

variable {slots : List Int} {env env' : Environment}

theorem findSlot?_updateWhere (env : Environment) (condition : Variable → Bool)
    (change : Variable → Variable) (h : ∀ v, (change v).slot = v.slot) (slot : Int) :
    (env.updateWhere condition change).findSlot? slot =
      (env.findSlot? slot).map fun v ↦ if condition v then change v else v := by
  rw [findSlot?, updateWhere, List.find?_map, findSlot?]
  have hslot : ((fun v : Variable ↦ decide ((v.slot : Int) = slot)) ∘
      fun v ↦ if condition v then change v else v) = fun v ↦ decide ((v.slot : Int) = slot) := by
    funext v
    by_cases hv : condition v = true <;> simp [hv, h]
  rw [hslot]

/-- Marks are no values. -/
@[simp] theorem slotValue?_activate (env : Environment) (owner : Nat) (slot : Int) :
    (env.activate owner).slotValue? slot = env.slotValue? slot := by
  have hfind := findSlot?_updateWhere env (·.slot == owner)
    (fun v ↦ { v with active := true }) (fun _ ↦ rfl) slot
  rw [slotValue?, activate, hfind, slotValue?, Option.map_map]
  refine congrArg (Option.map · (env.findSlot? slot)) (funext fun v ↦ ?_)
  by_cases hv : v.slot = owner <;> simp [hv]

/-- A value that is stored is found under its slot, and the other slots have the values they had. -/
theorem slotValue?_storeSlot {written : Int} {value : Value}
    (h : env.storeSlot written value = some env') (slot : Int) :
    env'.slotValue? slot = if slot = written then some value else env.slotValue? slot := by
  obtain ⟨w, hw, rfl⟩ := Option.map_eq_some_iff.1 h
  obtain ⟨-, rfl⟩ := findSlot?_mem hw
  have hfind := findSlot?_updateWhere env (·.slot == w.slot)
    (fun v ↦ { v with value }) (fun _ ↦ rfl) slot
  rw [slotValue?, hfind, slotValue?, Option.map_map]
  by_cases hslot : slot = w.slot
  · subst hslot
    simp [hw]
  · rw [if_neg hslot]
    cases hfind : env.findSlot? slot with
    | none => rfl
    | some v =>
      obtain ⟨-, rfl⟩ := findSlot?_mem hfind
      have hne : v.slot ≠ w.slot := fun heq ↦ hslot (congrArg Nat.cast heq)
      simp [hne]

/-- On a slot, two environments that agree find nothing, or two variables with one value. -/
theorem AgreeOn.retired_or_owned (h : env.AgreeOn slots env') {slot : Int} (hslot : slot ∈ slots) :
    (env.findSlot? slot = none ∧ env'.findSlot? slot = none) ∨
      ∃ v v', env.findSlot? slot = some v ∧ env'.findSlot? slot = some v' ∧ v.value = v'.value := by
  have hvalue := h slot hslot
  rw [slotValue?, slotValue?] at hvalue
  cases hfind : env.findSlot? slot with
  | none =>
    rw [hfind] at hvalue
    exact .inl ⟨rfl, Option.map_eq_none_iff.1 hvalue.symm⟩
  | some v =>
    rw [hfind] at hvalue
    obtain ⟨v', hfind', hvalue'⟩ := Option.map_eq_some_iff.1 hvalue.symm
    exact .inr ⟨v, v', rfl, hfind', hvalue'.symm⟩

theorem AgreeOn.storeSlot {next next' : Environment} {written : Int} {value : Value}
    (h : env.AgreeOn slots env') (hnext : env.storeSlot written value = some next)
    (hnext' : env'.storeSlot written value = some next') : next.AgreeOn slots next' := by
  intro slot hslot
  rw [slotValue?_storeSlot hnext, slotValue?_storeSlot hnext', h slot hslot]

theorem AgreeOn.activate (h : env.AgreeOn slots env') (owner owner' : Nat) :
    (env.activate owner).AgreeOn slots (env'.activate owner') := by
  intro slot hslot
  rw [slotValue?_activate, slotValue?_activate, h slot hslot]

end Environment

/-! ## Two executions -/

/-- Two computations come to the same, and leave environments behind that agree. -/
def Outcome.AgreeOn {α : Type} (slots : List Int) (o o' : Outcome α) : Prop :=
  o.1 = o'.1 ∧ o.2.AgreeOn slots o'.2

theorem Outcome.AgreeOn.andThen {α β : Type} {slots : List Int} {o o' : Outcome α}
    {f : α → Environment → Outcome β} (h : Outcome.AgreeOn slots o o')
    (hf : ∀ a env env', env.AgreeOn slots env' → Outcome.AgreeOn slots (f a env) (f a env')) :
    Outcome.AgreeOn slots (o.andThen f) (o'.andThen f) := by
  obtain ⟨result, env⟩ := o
  obtain ⟨result', env'⟩ := o'
  obtain ⟨rfl, henv⟩ := h
  cases result with
  | ok a => exact hf a env env' henv
  | error fault => exact ⟨rfl, henv⟩

section

variable {slots : List Int} {env env' : Environment} (functions : List Builtin)

/-- **The step**: an instruction whose slot is one of those on which two environments agree does the
same on both. -/
theorem Instruction.agreeOn_exec {i : Instruction}
    (hi : ∀ slot, i.operation.slot? = some slot → slot ∈ slots) (stack : Stack)
    (h : env.AgreeOn slots env') :
    Outcome.AgreeOn slots (i.exec functions stack env) (i.exec functions stack env') := by
  obtain ⟨operation, position⟩ := i
  by_cases hslot : operation.slot? = none
  · obtain ⟨result, hresult⟩ := Operation.exists_step_eq functions hslot stack
    rw [exec, exec, hresult, hresult]
    cases result with
    | ok stack => exact ⟨rfl, h⟩
    | error fault => exact ⟨rfl, h⟩
  cases operation with
  | load slot =>
    simp only [exec, Operation.step, Environment.load]
    rcases h.retired_or_owned (hi slot rfl) with ⟨hfind, hfind'⟩ | ⟨v, v', hfind, hfind', hvalue⟩
    · rw [hfind, hfind']
      exact ⟨rfl, h⟩
    · rw [hfind, hfind']
      exact ⟨by simp [hvalue], h.activate v.slot v'.slot⟩
  | store slot =>
    cases stack with
    | nil => exact ⟨rfl, h⟩
    | cons value stack =>
      simp only [exec, Operation.step]
      rcases h.retired_or_owned (hi slot rfl) with ⟨hfind, hfind'⟩ | ⟨v, v', hfind, hfind', -⟩
      · simp only [Environment.storeSlot, hfind, hfind']
        exact ⟨rfl, h⟩
      · obtain ⟨next, hnext⟩ : ∃ next, env.storeSlot slot value = some next :=
          ⟨_, by rw [Environment.storeSlot, hfind]; rfl⟩
        obtain ⟨next', hnext'⟩ : ∃ next', env'.storeSlot slot value = some next' :=
          ⟨_, by rw [Environment.storeSlot, hfind']; rfl⟩
        rw [hnext, hnext']
        exact ⟨rfl, h.storeSlot hnext hnext'⟩
  | _ => exact absurd rfl hslot

/-- **The code**: two executions that start alike end alike. -/
theorem Code.agreeOn_exec {code : Code}
    (hcode : ∀ i ∈ code, ∀ slot, i.operation.slot? = some slot → slot ∈ slots) (stack : Stack)
    (h : env.AgreeOn slots env') :
    Outcome.AgreeOn slots (exec functions code stack env) (exec functions code stack env') := by
  induction code generalizing stack env env' with
  | nil => exact ⟨rfl, h⟩
  | cons i code ih =>
    obtain ⟨hi, hcode⟩ := List.forall_mem_cons.1 hcode
    exact (i.agreeOn_exec functions hi stack h).andThen fun stack _ _ hnext ↦ ih hcode stack hnext

end

/-! ## Programs -/

namespace Program

/-- The slots of a program are those that its instructions load or store. -/
theorem mem_slots_iff {p : Program} {slot : Int} :
    slot ∈ p.slots ↔ ∃ i ∈ p.code, i.operation.slot? = some slot := by
  rw [slots, (List.mergeSort_perm _ _).mem_iff, List.mem_eraseDups, List.mem_filterMap]

/-- **A program depends on its slots and on nothing else.**  Let two environments agree on the slots
of a program, be it compiled or not: each of them is retired in both or has one value in both.  The
names of the variables, which other variables there are, which ones are active and which slot comes
next do not matter.  Then a run comes to the same value or the same fault on both, and leaves
environments behind that agree on these slots again. -/
theorem run_of_agreeOn (functions : List Builtin) (p : Program) {env env' : Environment}
    (h : env.AgreeOn p.slots env') :
    (p.run functions env).1 = (p.run functions env').1 ∧
      (p.run functions env).2.AgreeOn p.slots (p.run functions env').2 := by
  have hcode : ∀ i ∈ p.code, ∀ slot, i.operation.slot? = some slot → slot ∈ p.slots :=
    fun i hi slot hslot ↦ mem_slots_iff.2 ⟨i, hi, hslot⟩
  rw [run, Code.run_eq_exec, run, Code.run_eq_exec]
  exact (Code.agreeOn_exec functions hcode [] h).andThen fun stack _ _ hnext ↦ ⟨rfl, hnext⟩

/-- Two environments without a common name, and a program that stores to a slot of both and then
fails at one that is retired in both. -/
theorem run_of_agreeOn_retired :
    let p : Program := ⟨"", [⟨.constant (.text "new"), 4⟩, ⟨.store 0, 2⟩, ⟨.load 3, 7⟩], 2⟩
    let env : Environment := ⟨[⟨"x", .text "old", 0, false⟩, ⟨"y", .text "b", 1, true⟩], 4⟩
    let env' : Environment := ⟨[⟨"z", .text "c", 5, true⟩, ⟨"w", .text "old", 0, true⟩], 9⟩
    env.AgreeOn p.slots env' ∧
      (p.run [] env).1 = .error (.eval (.retiredSlot 3) (some 7)) ∧
      (p.run [] env').1 = .error (.eval (.retiredSlot 3) (some 7)) ∧
      (p.run [] env).2.AgreeOn p.slots (p.run [] env').2 ∧
      (p.run [] env').2.slotValue? 0 = some (.text "new") := by
  intro p env env'
  have hagree : env.AgreeOn p.slots env' := by
    intro slot hslot
    obtain ⟨i, hi, hslot⟩ := mem_slots_iff.1 hslot
    obtain rfl | rfl | rfl : i = _ ∨ i = _ ∨ i = _ := by simpa [p] using hi
    · cases hslot
    · cases hslot
      rfl
    · cases hslot
      rfl
  obtain ⟨hresult, hleft⟩ := run_of_agreeOn [] p hagree
  have hrun : (p.run [] env).1 = .error (.eval (.retiredSlot 3) (some 7)) := rfl
  exact ⟨hagree, hrun, hresult ▸ hrun, hleft, rfl⟩

end Program

end Reckoner
