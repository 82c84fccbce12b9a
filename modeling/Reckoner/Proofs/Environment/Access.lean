import Reckoner.Proofs.Environment.Keys

/-!
# Access by name and by slot

Compiled code reads and writes variables by their slots.  In a well-formed environment this is
reading and writing by name (`load_eq_get`, `storeSlot_eq_put`), as long as the variable of the name
owns the slot; where nobody owns it, both fail.

A change of one variable shows at its name (`find?_updateWhere_self`, `find?_put_self`) and at no
other name (`find?_updateWhere_of_ne`, `find?_put_of_ne`).
-/

set_option autoImplicit false

namespace Reckoner

namespace Environment

variable {env : Environment} {name : String} {slot : Nat}

/-! ## What a change shows -/

theorem find?_updateWhere (env : Environment) (name other : String) (change : Variable → Variable)
    (h : ∀ v, (change v).name = v.name) :
    (env.updateWhere (·.name == name) change).find? other =
      (env.find? other).map fun v ↦ if v.name == name then change v else v := by
  rw [find?, updateWhere, List.find?_map, find?]
  have hname : ((fun v : Variable ↦ v.name == other) ∘
      fun v ↦ if v.name == name then change v else v) = fun v ↦ v.name == other := by
    funext v
    by_cases hv : v.name = name <;> simp [hv, h]
  rw [hname]

theorem find?_updateWhere_self (env : Environment) (name : String) (change : Variable → Variable)
    (h : ∀ v, (change v).name = v.name) :
    (env.updateWhere (·.name == name) change).find? name = (env.find? name).map change := by
  rw [find?_updateWhere env name name change h]
  cases hfind : env.find? name with
  | none => rfl
  | some v => simp [(find?_mem hfind).2]

theorem find?_updateWhere_of_ne (env : Environment) {name other : String}
    (change : Variable → Variable) (h : ∀ v, (change v).name = v.name) (hne : other ≠ name) :
    (env.updateWhere (·.name == name) change).find? other = env.find? other := by
  rw [find?_updateWhere env name other change h]
  cases hfind : env.find? other with
  | none => rfl
  | some v => simp [(find?_mem hfind).2, hne]

theorem find?_create_self (h : env.find? name = none) (value : Value) :
    (env.create name value).find? name = some ⟨name, value, env.nextSlot, false⟩ := by
  rw [find?] at h
  simp [find?, create, List.find?_append, h]

theorem find?_create_of_ne (env : Environment) {name other : String} (value : Value)
    (hne : other ≠ name) : (env.create name value).find? other = env.find? other := by
  simp [find?, create, List.find?_append, Ne.symm hne]

theorem find?_erase_self (env : Environment) (name : String) : (env.erase name).find? name = none :=
  Option.not_isSome_iff_eq_none.1 (Bool.not_eq_true _ ▸ has_erase env name)

theorem find?_erase_of_ne (env : Environment) {name other : String} (hne : other ≠ name) :
    (env.erase name).find? other = env.find? other := by
  rw [find?, erase, List.find?_filter, find?]
  refine congrArg (List.find? · env.variables) (funext fun v ↦ ?_)
  by_cases hv : v.name = other <;> simp [hv, hne]

/-- A variable that is given a value keeps its slot and its mark; a new one has the next slot. -/
theorem find?_put_self (env : Environment) (name : String) (value : Value) :
    (env.put name value).find? name =
      some ((env.find? name).elim ⟨name, value, env.nextSlot, false⟩ fun v ↦ { v with value }) := by
  rw [put, has]
  cases hfind : env.find? name with
  | none => exact find?_create_self hfind value
  | some v =>
    rw [Option.isSome_some, if_pos rfl,
      find?_updateWhere_self env name (fun v ↦ { v with value }) fun _ ↦ rfl, hfind]
    rfl

theorem find?_put_of_ne (env : Environment) {name other : String} (value : Value)
    (hne : other ≠ name) : (env.put name value).find? other = env.find? other := by
  rw [put]
  split
  · exact find?_updateWhere_of_ne env _ (fun _ ↦ rfl) hne
  · exact find?_create_of_ne env value hne

theorem nextSlot_put (env : Environment) (name : String) (value : Value) :
    (env.put name value).nextSlot =
      if env.has name then env.nextSlot else env.nextSlot + 1 := by
  rw [put]
  split <;> rfl

/-! ## The slot of a variable -/

/-- Changing the variable that owns a slot is changing it by its name. -/
theorem WellFormed.updateWhere_slot (h : env.WellFormed) (hown : env.Owns name slot)
    (change : Variable → Variable) :
    env.updateWhere (·.slot == slot) change = env.updateWhere (·.name == name) change := by
  obtain ⟨v, hname, hslot, hvname, hvslot⟩ := hown.exists_variable h
  obtain ⟨hv, _⟩ := find?_mem hname
  have hiff : ∀ w ∈ env.variables, (w.slot == slot) = (w.name == name) := by
    intro w hw
    rw [Bool.eq_iff_iff, beq_iff_eq, beq_iff_eq]
    refine ⟨fun hw' ↦ ?_, fun hw' ↦ ?_⟩
    · rw [h.eq_of_slot hw hv (hw'.trans hvslot.symm), hvname]
    · rw [h.eq_of_name hw hv (hw'.trans hvname.symm), hvslot]
  simp only [updateWhere, Environment.mk.injEq, and_true]
  exact List.map_congr_left fun w hw ↦ by simp only [hiff w hw]

/-- **Reading by slot is reading by name.** -/
theorem WellFormed.load_eq_get (h : env.WellFormed) (hown : env.Owns name slot) :
    env.load slot = (env.get name).toOption := by
  obtain ⟨v, hname, hslot, _, _⟩ := hown.exists_variable h
  rw [load, hslot, get, lookup, hname]
  rfl

/-- **Writing by slot is writing by name.** -/
theorem WellFormed.storeSlot_eq_put (h : env.WellFormed) (hown : env.Owns name slot)
    (value : Value) : env.storeSlot slot value = some (env.put name value) := by
  obtain ⟨v, hname, hslot, _, hvslot⟩ := hown.exists_variable h
  rw [storeSlot, hslot, put, if_pos (has_of_find? hname), Option.map_some, hvslot,
    h.updateWhere_slot hown]

/-- Reading by name, in the environment's own terms. -/
theorem WellFormed.get_of_owns (h : env.WellFormed) (hown : env.Owns name slot) :
    ∃ v, env.find? name = some v ∧ v.slot = slot ∧
      env.get name =
        .ok (v.value, env.updateWhere (·.name == name) fun w ↦ { w with active := true }) := by
  obtain ⟨v, hname, _, _, hvslot⟩ := hown.exists_variable h
  refine ⟨v, hname, hvslot, ?_⟩
  rw [get, lookup, hname, ← h.updateWhere_slot hown, ← hvslot]
  rfl

theorem load_of_not_owns (h : ∀ name, ¬ env.Owns name slot) : env.load slot = none := by
  rw [load, findSlot?_eq_none_of_forall h]
  rfl

theorem storeSlot_of_not_owns (h : ∀ name, ¬ env.Owns name slot) (value : Value) :
    env.storeSlot slot value = none := by
  rw [storeSlot, findSlot?_eq_none_of_forall h]
  rfl

end Environment

end Reckoner
