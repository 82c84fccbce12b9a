import Reckoner.Environment.Basic
import Mathlib.Data.List.Nodup

/-!
# Names and slots

Which variables there are, and which slots they own, is what compiled code relies on.  This file is
about that part of an environment alone: `Environment.keys` are the names with their slots, and
values and marks do not show in them.

* `Environment.WellFormed` says that no two variables share a name or a slot, and that every slot
  was given out before the next one.  Under it, looking a variable up by name and by slot is the
  same (`Owns.exists_variable`).
* `keys_updateWhere` and its consequences: reading a variable, writing one and resetting the marks
  change no key.
* `keys_create` and `keys_erase`: a new variable is a new key with the next slot, and taking a name
  out takes its key out.
-/

set_option autoImplicit false

namespace Reckoner

/-- What a variable is known by. -/
def Variable.key (v : Variable) : String × Nat := (v.name, v.slot)

namespace Environment

/-- The names of the variables with their slots. -/
def keys (env : Environment) : List (String × Nat) := env.variables.map Variable.key

/-- The variable of a name owns a slot. -/
def Owns (env : Environment) (name : String) (slot : Nat) : Prop := (name, slot) ∈ env.keys

/-- No two variables share a name or a slot, and the next slot is beyond all that are owned. -/
structure WellFormed (env : Environment) : Prop where
  /-- Each name stands for one variable. -/
  names_nodup : (env.keys.map Prod.fst).Nodup
  /-- Each slot is owned once. -/
  slots_nodup : (env.keys.map Prod.snd).Nodup
  /-- A slot that is owned was given out. -/
  slot_lt : ∀ k ∈ env.keys, k.2 < env.nextSlot

theorem WellFormed.of_keys_eq {env env' : Environment} (h : env.WellFormed)
    (hkeys : env'.keys = env.keys) (hnext : env'.nextSlot = env.nextSlot) : env'.WellFormed :=
  ⟨hkeys ▸ h.names_nodup, hkeys ▸ h.slots_nodup, hkeys ▸ hnext ▸ h.slot_lt⟩

theorem wellFormed_empty : empty.WellFormed := ⟨by simp [keys, empty], by simp [keys, empty],
  by simp [keys, empty]⟩

/-! ## Looking variables up -/

theorem key_mem_keys {env : Environment} {v : Variable} (h : v ∈ env.variables) :
    v.key ∈ env.keys :=
  List.mem_map_of_mem h

theorem find?_mem {env : Environment} {name : String} {v : Variable}
    (h : env.find? name = some v) : v ∈ env.variables ∧ v.name = name :=
  ⟨List.mem_of_find?_eq_some h, by simpa using List.find?_some h⟩

theorem findSlot?_mem {env : Environment} {slot : Int} {v : Variable}
    (h : env.findSlot? slot = some v) : v ∈ env.variables ∧ (v.slot : Int) = slot :=
  ⟨List.mem_of_find?_eq_some h, by simpa using List.find?_some h⟩

theorem has_of_find? {env : Environment} {name : String} {v : Variable}
    (h : env.find? name = some v) : env.has name = true := by
  rw [has, h, Option.isSome_some]

theorem owns_of_find? {env : Environment} {name : String} {v : Variable}
    (h : env.find? name = some v) : env.Owns name v.slot := by
  obtain ⟨hmem, rfl⟩ := find?_mem h
  exact key_mem_keys hmem

theorem owns_of_findSlot? {env : Environment} {slot : Nat} {v : Variable}
    (h : env.findSlot? slot = some v) : env.Owns v.name slot := by
  obtain ⟨hmem, hslot⟩ := findSlot?_mem h
  obtain rfl : v.slot = slot := by exact_mod_cast hslot
  exact key_mem_keys hmem

theorem WellFormed.eq_of_name {env : Environment} (h : env.WellFormed) {v w : Variable}
    (hv : v ∈ env.variables) (hw : w ∈ env.variables) (hname : v.name = w.name) : v = w :=
  List.inj_on_of_nodup_map (f := fun v : Variable ↦ v.name)
    (by simpa [keys, Function.comp_def, Variable.key] using h.names_nodup) hv hw hname

theorem WellFormed.eq_of_slot {env : Environment} (h : env.WellFormed) {v w : Variable}
    (hv : v ∈ env.variables) (hw : w ∈ env.variables) (hslot : v.slot = w.slot) : v = w :=
  List.inj_on_of_nodup_map (f := fun v : Variable ↦ v.slot)
    (by simpa [keys, Function.comp_def, Variable.key] using h.slots_nodup) hv hw hslot

theorem WellFormed.find?_eq_some_iff {env : Environment} (h : env.WellFormed) {name : String}
    {v : Variable} : env.find? name = some v ↔ v ∈ env.variables ∧ v.name = name := by
  refine ⟨find?_mem, fun ⟨hmem, hname⟩ ↦ ?_⟩
  cases hfind : env.find? name with
  | none => exact absurd hname (by simpa using List.find?_eq_none.1 hfind v hmem)
  | some w =>
    obtain ⟨hw, hwname⟩ := find?_mem hfind
    rw [h.eq_of_name hw hmem (hwname.trans hname.symm)]

theorem WellFormed.findSlot?_eq_some_iff {env : Environment} (h : env.WellFormed) {slot : Nat}
    {v : Variable} : env.findSlot? slot = some v ↔ v ∈ env.variables ∧ v.slot = slot := by
  refine ⟨fun hfind ↦ ?_, fun ⟨hmem, hslot⟩ ↦ ?_⟩
  · obtain ⟨hmem, hslot⟩ := findSlot?_mem hfind
    exact ⟨hmem, by exact_mod_cast hslot⟩
  · cases hfind : env.findSlot? slot with
    | none =>
      have hne : ¬ (v.slot : Int) = slot := by simpa using List.find?_eq_none.1 hfind v hmem
      exact absurd (congrArg Nat.cast hslot) hne
    | some w =>
      obtain ⟨hw, hwslot⟩ := findSlot?_mem hfind
      rw [h.eq_of_slot hw hmem (by rw [hslot]; exact_mod_cast hwslot)]

/-- **Name and slot find the same variable.** -/
theorem Owns.exists_variable {env : Environment} {name : String} {slot : Nat}
    (hown : env.Owns name slot) (h : env.WellFormed) :
    ∃ v, env.find? name = some v ∧ env.findSlot? slot = some v ∧ v.name = name ∧ v.slot = slot := by
  obtain ⟨v, hv, hkey⟩ := List.mem_map.1 hown
  obtain ⟨rfl, rfl⟩ := Prod.mk.inj hkey
  exact ⟨v, h.find?_eq_some_iff.2 ⟨hv, rfl⟩, h.findSlot?_eq_some_iff.2 ⟨hv, rfl⟩, rfl, rfl⟩

/-- A slot whose owner is not there finds nothing. -/
theorem findSlot?_eq_none_of_forall {env : Environment} {slot : Nat}
    (h : ∀ name, ¬ env.Owns name slot) : env.findSlot? slot = none := by
  cases hfind : env.findSlot? slot with
  | none => rfl
  | some v => exact absurd (owns_of_findSlot? hfind) (h v.name)

/-! ## What changes no key -/

theorem keys_updateWhere (env : Environment) (condition : Variable → Bool)
    {change : Variable → Variable} (h : ∀ v, (change v).key = v.key) :
    (env.updateWhere condition change).keys = env.keys := by
  simp only [keys, updateWhere, List.map_map]
  refine List.map_congr_left fun v _ ↦ ?_
  by_cases hv : condition v = true <;> simp [hv, h]

@[simp] theorem nextSlot_updateWhere (env : Environment) (condition : Variable → Bool)
    (change : Variable → Variable) : (env.updateWhere condition change).nextSlot = env.nextSlot :=
  rfl

@[simp] theorem keys_activate (env : Environment) (slot : Nat) :
    (env.activate slot).keys = env.keys :=
  keys_updateWhere env _ fun _ ↦ rfl

@[simp] theorem nextSlot_activate (env : Environment) (slot : Nat) :
    (env.activate slot).nextSlot = env.nextSlot := rfl

@[simp] theorem keys_resetActive (env : Environment) : env.resetActive.keys = env.keys :=
  keys_updateWhere env _ fun _ ↦ rfl

theorem keys_storeSlot {env env' : Environment} {slot : Int} {value : Value}
    (h : env.storeSlot slot value = some env') :
    env'.keys = env.keys ∧ env'.nextSlot = env.nextSlot := by
  obtain ⟨v, _, rfl⟩ := Option.map_eq_some_iff.1 h
  exact ⟨keys_updateWhere env _ fun _ ↦ rfl, rfl⟩

theorem keys_load {env env' : Environment} {slot : Int} {value : Value}
    (h : env.load slot = some (value, env')) :
    env'.keys = env.keys ∧ env'.nextSlot = env.nextSlot := by
  obtain ⟨v, _, hv⟩ := Option.map_eq_some_iff.1 h
  obtain ⟨rfl, rfl⟩ := Prod.mk.inj hv
  exact ⟨keys_activate env _, rfl⟩

/-- A name that is defined keeps its slot when it is given a value. -/
theorem keys_put {env : Environment} {name : String} (h : env.has name = true) (value : Value) :
    (env.put name value).keys = env.keys ∧ (env.put name value).nextSlot = env.nextSlot := by
  rw [put, if_pos h]
  exact ⟨keys_updateWhere env _ fun _ ↦ rfl, rfl⟩

/-! ## New variables, and variables taken out -/

@[simp] theorem keys_create (env : Environment) (name : String) (value : Value) :
    (env.create name value).keys = env.keys ++ [(name, env.nextSlot)] := by
  simp [keys, create, Variable.key]

@[simp] theorem nextSlot_create (env : Environment) (name : String) (value : Value) :
    (env.create name value).nextSlot = env.nextSlot + 1 := rfl

@[simp] theorem keys_erase (env : Environment) (name : String) :
    (env.erase name).keys = env.keys.filter (·.1 != name) := by
  simp [keys, erase, List.filter_map, Function.comp_def, Variable.key]

@[simp] theorem nextSlot_erase (env : Environment) (name : String) :
    (env.erase name).nextSlot = env.nextSlot := rfl

theorem has_iff {env : Environment} {name : String} :
    env.has name = true ↔ name ∈ env.keys.map Prod.fst := by
  simp [has, find?, keys, Variable.key]

theorem WellFormed.create {env : Environment} (h : env.WellFormed) {name : String}
    (hname : env.has name = false) (value : Value) : (env.create name value).WellFormed := by
  have hnot : name ∉ env.keys.map Prod.fst := by rw [← has_iff, hname]; simp
  refine ⟨?_, ?_, ?_⟩
  · rw [keys_create, List.map_append, List.nodup_append]
    refine ⟨h.names_nodup, by simp, ?_⟩
    rintro x hx y hy rfl
    obtain rfl : x = name := by simpa using hy
    exact hnot hx
  · rw [keys_create, List.map_append, List.nodup_append]
    refine ⟨h.slots_nodup, by simp, ?_⟩
    rintro x hx y hy rfl
    obtain rfl : x = env.nextSlot := by simpa using hy
    obtain ⟨k, hk, hlt⟩ := List.mem_map.1 hx
    exact absurd (h.slot_lt k hk) (by omega)
  · intro k hk
    rw [keys_create, List.mem_append, List.mem_singleton] at hk
    rcases hk with hk | rfl
    · exact Nat.lt_succ_of_lt (h.slot_lt k hk)
    · exact Nat.lt_succ_self _

theorem WellFormed.erase {env : Environment} (h : env.WellFormed) (name : String) :
    (env.erase name).WellFormed := by
  have hsub : ((env.erase name).keys).Sublist env.keys := by
    rw [keys_erase]; exact List.filter_sublist
  exact ⟨h.names_nodup.sublist (hsub.map _), h.slots_nodup.sublist (hsub.map _),
    fun k hk ↦ h.slot_lt k (hsub.subset hk)⟩

theorem has_erase (env : Environment) (name : String) : (env.erase name).has name = false := by
  rw [Bool.eq_false_iff, ne_eq, has_iff, keys_erase]
  simp

end Environment

end Reckoner
