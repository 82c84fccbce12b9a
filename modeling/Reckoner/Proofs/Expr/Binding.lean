import Reckoner.Proofs.Environment.Access
import Reckoner.Proofs.Environment.History
import Reckoner.Proofs.Expr.Instructions

/-!
# Programs and their variables

An instruction that reads or writes a variable knows it by its slot alone.  It comes from a name in
the text, and the slot is the one that the variable of this name had when the text was compiled.
`Scope.bound_for_ever` tells what the instruction does later, after anything may have happened to
the variables: as long as that variable was never retired it reads or writes it and no other, and
once it was retired the instruction fails, whatever has become of the name.
-/

set_option autoImplicit false

namespace Reckoner

variable {scope : Scope} {tokens : List Placed}

/-! ## Where an access comes from -/

/-- An instruction reads or writes the variable of a name in the text. -/
def Instruction.Accesses (scope : Scope) (tokens : List Placed) (i : Instruction) : Prop :=
  ∃ r : Reference, r.WrittenIn scope tokens ∧ i.operation.slot? = some (r.slot : Int) ∧
    i.position = r.position

/-- **Every access in compiled code comes from a name in the text.** -/
theorem Instruction.WrittenIn.accesses {i : Instruction} (h : i.WrittenIn scope tokens) {slot : Int}
    (hslot : i.operation.slot? = some slot) : i.Accesses scope tokens := by
  cases h with
  | load written | store written => exact ⟨_, written, rfl, rfl⟩
  | _ => cases hslot

/-- The variable of a name in the text owns the slot that the code knows it by. -/
theorem Reference.WrittenIn.owns {r : Reference} (h : r.WrittenIn scope tokens) :
    scope.variables.Owns r.name r.slot := by
  obtain ⟨-, v, hfind, hslot⟩ := Scope.find?_of_meaning_variable h.meaning
  exact hslot ▸ Environment.owns_of_find? hfind

/-! ## What an access does -/

/-- An instruction reads or writes the variable of a name, and no other variable: reading pushes its
value and marks it, writing gives it the value on top of the stack. -/
def Instruction.ActsOn (functions : List Builtin) (i : Instruction) (name : String) (stack : Stack)
    (env : Environment) : Prop :=
  ∃ v stack' env', env.find? name = some v ∧ i.operation.slot? = some (v.slot : Int) ∧
    i.exec functions stack env = (.ok stack', env') ∧
    (∀ other, other ≠ name → env'.find? other = env.find? other) ∧
    match i.operation with
    | .load _ => stack' = v.value :: stack ∧ env'.find? name = some { v with active := true }
    | .store _ => ∃ value below, stack = value :: below ∧ stack' = stack ∧
        env'.find? name = some { v with value }
    | _ => False

/-- An access through a slot that the variable of a name owns is an access to that variable. -/
theorem Instruction.actsOn_of_owns (functions : List Builtin) {i : Instruction} {name : String}
    {slot : Nat} {stack : Stack} {env : Environment} (h : env.WellFormed)
    (hown : env.Owns name slot) (hslot : i.operation.slot? = some (slot : Int))
    (hoperands : i.operation.operands ≤ stack.length) : i.ActsOn functions name stack env := by
  obtain ⟨operation, position⟩ := i
  obtain ⟨v, hfind, hvslot, hget⟩ := h.get_of_owns hown
  cases operation with
  | load =>
    obtain rfl := Option.some.inj hslot
    refine ⟨v, v.value :: stack, env.updateWhere (·.name == name) fun w ↦ { w with active := true },
      hfind, by rw [hvslot]; rfl, ?_, fun other hother ↦ ?_, rfl, ?_⟩
    · rw [exec, Operation.step, h.load_eq_get hown, hget]
      rfl
    · exact Environment.find?_updateWhere_of_ne env _ (fun _ ↦ rfl) hother
    · have hself := Environment.find?_updateWhere_self env name
        (fun w ↦ { w with active := true }) fun _ ↦ rfl
      rw [hself, hfind]
      rfl
  | store =>
    obtain rfl := Option.some.inj hslot
    have hhas := Environment.has_of_find? hfind
    cases stack with
    | nil => exact absurd hoperands (by simp [Operation.operands])
    | cons value below =>
      refine ⟨v, value :: below, env.put name value, hfind, by rw [hvslot]; rfl, ?_,
        fun other hother ↦ ?_, value, below, rfl, rfl, ?_⟩
      · rw [exec, Operation.step, h.storeSlot_eq_put hown]
      · rw [Environment.put, if_pos hhas]
        exact Environment.find?_updateWhere_of_ne env _ (fun _ ↦ rfl) hother
      · have hself := Environment.find?_updateWhere_self env name
          (fun w ↦ { w with value }) fun _ ↦ rfl
        rw [Environment.put, if_pos hhas, hself, hfind]
        rfl
  | _ => cases hslot

/-- An access through a slot that nobody owns fails and changes nothing. -/
theorem Instruction.exec_of_not_owns (functions : List Builtin) {i : Instruction} {slot : Nat}
    {stack : Stack} {env : Environment} (h : ∀ name, ¬ env.Owns name slot)
    (hslot : i.operation.slot? = some (slot : Int))
    (hoperands : i.operation.operands ≤ stack.length) :
    i.exec functions stack env =
      (.error (.eval (.retiredSlot slot) (some i.position)), env) := by
  obtain ⟨operation, position⟩ := i
  cases operation with
  | load =>
    obtain rfl := Option.some.inj hslot
    rw [exec, Operation.step, Environment.load_of_not_owns h]
    rfl
  | store =>
    obtain rfl := Option.some.inj hslot
    cases stack with
    | nil => exact absurd hoperands (by simp [Operation.operands])
    | cons value below =>
      rw [exec, Operation.step, Environment.storeSlot_of_not_owns h]
      rfl
  | _ => cases hslot

namespace Scope

/-- **A compiled program is bound to its variables for ever.**  Let a text be compiled where any
events have led, and let any events follow.  Whenever an instruction of the program that reads or
writes a variable is about to be executed, its place in the text has a name, and its slot is the one
that the variable of this name had when the text was compiled.  If no event has retired that
variable, the instruction reads or writes the variable of this name, which still has the slot, and
no other.  If some event has retired it, the instruction fails and changes nothing, and the run ends
with this failure. -/
theorem bound_for_ever {env₀ : Environment} (hreachable : env₀.Reachable)
    {table : FunctionTable} {limit : Int} {text : String} {p : Program}
    (hcompile : compile ⟨table, env₀, limit⟩ text = .ok p) (events : List Event)
    (functions : List Builtin) {k : Nat} {i : Instruction} (hi : p.code[k]? = some i) {slot : Int}
    (hslot : i.operation.slot? = some slot) {stack : Stack} {env : Environment}
    (hexec : Code.exec functions (p.code.take k) [] (env₀.afterAll events) = (.ok stack, env)) :
    ∃ (name : String) (position : Nat) (v : Variable),
      ⟨.name name, position⟩ ∈ Placed.scan 0 text.toList ∧ i.position = position ∧
      env₀.find? name = some v ∧ slot = v.slot ∧
      (¬ env₀.Retired events name → i.ActsOn functions name stack env) ∧
      (env₀.Retired events name →
        i.exec functions stack env = (.error (.eval (.retiredSlot slot) (some i.position)), env) ∧
        p.run functions (env₀.afterAll events) =
          (.error (.eval (.retiredSlot slot) (some i.position)), env)) := by
  obtain ⟨r, hr, hrslot, hposition⟩ :=
    (instructions_of_compile hcompile i (List.mem_of_getElem? hi)).accesses hslot
  obtain rfl : slot = r.slot := Option.some.inj (hslot.symm.trans hrslot)
  have hwf := hreachable.wellFormed
  have hown : env₀.Owns r.name r.slot := hr.owns
  obtain ⟨v, hfind, _, _, hvslot⟩ := hown.exists_variable hwf
  -- Executing code leaves names and slots as the events have left them.
  have hfollows := Environment.follows_afterAll hwf events
  have hkeys := Code.keys_exec functions (p.code.take k) [] (env₀.afterAll events)
  rw [hexec] at hkeys
  have howns (name : String) (slot : Nat) :
      env.Owns name slot ↔ (env₀.afterAll events).Owns name slot := by
    rw [Environment.Owns, hkeys.1, Environment.Owns]
  have hoperands := (operands_of_compile hcompile hi hexec).2
  refine ⟨r.name, r.position, v, hr.mem, hposition, hfind, by rw [hvslot], ?_, ?_⟩
  · intro hretired
    have hstill := (howns _ _).2 (hfollows.owns hwf hown hretired)
    exact Instruction.actsOn_of_owns functions (hfollows.wellFormed.of_keys_eq hkeys.1 hkeys.2)
      hstill hslot hoperands
  · intro hretired
    have hnone (name : String) : ¬ env.Owns name r.slot :=
      mt (howns _ _).1 (hfollows.not_owns hwf hown hretired name)
    have hfail := Instruction.exec_of_not_owns functions hnone hslot hoperands
    exact ⟨hfail, Program.run_eq_error functions hi hexec hfail⟩

/-- A program that reads a variable fails after the variable was removed, even if there is a new one
of the same name. -/
theorem bound_for_ever_removed :
    ∃ p, compile ⟨.standard, Environment.empty.afterAll [.set "x" (.value (.text "a"))], 64⟩ "x" =
        .ok p ∧
      ∃ env, p.run [] (Environment.afterAll
          (Environment.empty.afterAll [.set "x" (.value (.text "a"))])
          [.remove "x", .set "x" (.value (.text "b"))]) =
        (.error (.eval (.retiredSlot 0) (some 0)), env) := by
  have hreachable : (Environment.empty.afterAll [.set "x" (.value (.text "a"))]).Reachable :=
    ⟨_, rfl⟩
  have hcompile : (compile ⟨.standard,
      Environment.empty.afterAll [.set "x" (.value (.text "a"))], 64⟩ "x").map (·.code[0]?) =
        .ok (some ⟨.load 0, 0⟩) := by decide +kernel
  obtain ⟨p, hp, hi⟩ := exists_of_map_compile hcompile
  obtain ⟨name, position, v, _, _, hfind, _, _, hretired⟩ := bound_for_ever hreachable hp
    [.remove "x", .set "x" (.value (.text "b"))] [] hi rfl (by rfl)
  have hname : name = "x" := by
    obtain ⟨hv, rfl⟩ := Environment.find?_mem hfind
    rw [List.mem_singleton.1 hv]
  refine ⟨p, hp, _, (hretired ⟨[], .remove "x", [.set "x" (.value (.text "b"))], rfl, hname⟩).2⟩

end Scope

end Reckoner
