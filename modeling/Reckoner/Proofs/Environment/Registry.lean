import Reckoner.Entries
import Reckoner.Proofs.Environment.Access
import Reckoner.Proofs.Program.Execution

/-!
# Two indexes into the same variables

An environment is one list of variables, which is searched by name and by slot.  The variables can
also be held in records of their own, with one index of the records by name and another by slot.
Then a variable that is made has to be put into both indexes and one that is taken out has to be
taken out of both, and a value or a mark that is written shows under the name and under the slot
because both lead to the same record.  Nothing but the operations keeps the two indexes in step.

* `Registry` is such a pair of indexes, with the operations that touch one of them or a record.
* `Registry.Shows` says that a registry holds the variables of an environment: both indexes lead to
  their records, in the order in which they were made, and to nothing else.  Each operation keeps it
  up (`Shows.create`, `Shows.change`, `Shows.unlist`, `Shows.resetActive`).
* `Program.runOn` runs a program on a registry, and `Registry.Shows.runOn` says that it does what it
  does on the environment.
-/

set_option autoImplicit false

namespace Reckoner

/-- Variables in records, with an index of the records by name and another by slot.  A record that
no index leads to any more stays, but nothing reaches it. -/
structure Registry where
  /-- The records, in the order in which they were made. -/
  records : List Variable
  /-- The place of the record of each name. -/
  byName : List (String × Nat)
  /-- The place of the record of each slot. -/
  bySlot : List (Int × Nat)
  /-- The slot of the next variable. -/
  nextSlot : Nat

namespace Registry

/-- The registry without variables. -/
def empty : Registry := ⟨[], [], [], 0⟩

/-! ## Looking variables up -/

/-- The variable of a name. -/
def find? (r : Registry) (name : String) : Option Variable :=
  (r.byName.lookup name).bind fun place ↦ r.records[place]?

/-- The variable that owns a slot. -/
def findSlot? (r : Registry) (slot : Int) : Option Variable :=
  (r.bySlot.lookup slot).bind fun place ↦ r.records[place]?

/-- Whether a name is defined. -/
def has (r : Registry) (name : String) : Bool := (r.byName.lookup name).isSome

/-- The names that start with a head, in order. -/
def namesWithHead (r : Registry) (head : String) : List String :=
  ((r.byName.map Prod.fst).mergeSort fun a b ↦ decide (a ≤ b)).filter
    (Environment.startsWith head)

/-- The complaint that a name is not defined. -/
def undefined (r : Registry) (name : String) : VariableError :=
  .undefined name (Text.closeMatches name (r.byName.map Prod.fst))

/-- The variables that the index by name leads to, and the slot of the next one. -/
def toEnvironment (r : Registry) : Environment :=
  ⟨r.byName.filterMap fun entry ↦ r.records[entry.2]?, r.nextSlot⟩

/-! ## Changing variables -/

/-- Makes a record with the next slot and puts it into both indexes. -/
def create (r : Registry) (name : String) (value : Value) : Registry where
  records := r.records ++ [⟨name, value, r.nextSlot, false⟩]
  byName := putEntry name r.records.length r.byName
  bySlot := putEntry (r.nextSlot : Int) r.records.length r.bySlot
  nextSlot := r.nextSlot + 1

/-- Changes the record at a place. -/
def change (r : Registry) (place : Nat) (f : Variable → Variable) : Registry :=
  { r with records := r.records.modify place f }

/-- Takes a name out of the index by name. -/
def unlistName (r : Registry) (name : String) : Registry :=
  { r with byName := r.byName.filter (·.1 != name) }

/-- Takes a slot out of the index by slot. -/
def unlistSlot (r : Registry) (slot : Nat) : Registry :=
  { r with bySlot := r.bySlot.filter (·.1 != (slot : Int)) }

/-- Reads the variable of a slot and marks it. -/
def load (r : Registry) (slot : Int) : Option (Value × Registry) := do
  let place ← r.bySlot.lookup slot
  let v ← r.records[place]?
  return (v.value, r.change place fun v ↦ { v with active := true })

/-- Writes the variable of a slot. -/
def storeSlot (r : Registry) (slot : Int) (value : Value) : Option Registry := do
  let place ← r.bySlot.lookup slot
  return r.change place fun v ↦ { v with value }

/-- Takes the mark off every variable that the index by name leads to, one after the other. -/
def resetActive (r : Registry) : Registry :=
  r.byName.foldl (fun r entry ↦ r.change entry.2 fun v ↦ { v with active := false }) r

end Registry

/-! ## Running programs -/

/-- Does one operation.  Variables are read and written by slot; any other operation does not look
at them. -/
def Operation.stepOn (functions : List Builtin) (operation : Operation) (stack : Stack)
    (r : Registry) : Except Fault (Stack × Registry) :=
  match operation, stack with
  | .load slot, stack =>
    match r.load slot with
    | some (value, r) => .ok (value :: stack, r)
    | none => .error (.ofCause (.retiredSlot slot))
  | .store slot, value :: stack =>
    match r.storeSlot slot value with
    | some r => .ok (value :: stack, r)
    | none => .error (.ofCause (.retiredSlot slot))
  | operation, stack =>
    (operation.step functions stack .empty).map fun next ↦ (next.1, r)

/-- Runs code on a stack and a registry. -/
def Code.runOn (functions : List Builtin) : Code → Stack → Registry →
    Except Fault Value × Registry
  | [], stack, r => (stack.result, r)
  | i :: code, stack, r =>
    match i.operation.stepOn functions stack r with
    | .ok (stack, r) => Code.runOn functions code stack r
    | .error fault => (.error (fault.atPosition i.position), r)

/-- Runs a program on a registry, from an empty stack. -/
def Program.runOn (functions : List Builtin) (p : Program) (r : Registry) :
    Except Fault Value × Registry :=
  Code.runOn functions p.code [] r

/-! ## Showing an environment -/

namespace Registry

/-- A registry holds the variables of an environment.  The place of a record is the slot of its
variable, and the indexes lead to the records of the variables that are there. -/
structure Shows (r : Registry) (env : Environment) : Prop where
  /-- Names and slots are in order. -/
  wellFormed : env.WellFormed
  /-- The index by name leads to the variables, in the order in which they were made. -/
  byName_eq : r.byName = env.variables.map fun v ↦ (v.name, v.slot)
  /-- So does the index by slot. -/
  bySlot_eq : r.bySlot = env.variables.map fun v ↦ ((v.slot : Int), v.slot)
  /-- Each variable is in its record. -/
  record_eq : ∀ v ∈ env.variables, r.records[v.slot]? = some v
  /-- A record was made for each slot that was given out. -/
  length_records : r.records.length = env.nextSlot
  /-- The next slot is the same. -/
  nextSlot_eq : r.nextSlot = env.nextSlot

variable {r : Registry} {env : Environment} {name : String} {v : Variable}

/-- Steps that come to the same; the registry that one leaves shows the environment that the other
leaves. -/
inductive Alike : Except Fault (Stack × Registry) → Except Fault (Stack × Environment) → Prop
  | ok {stack : Stack} {r : Registry} {env : Environment} (shows : r.Shows env) :
    Alike (.ok (stack, r)) (.ok (stack, env))
  | error (fault : Fault) : Alike (.error fault) (.error fault)

theorem shows_empty : empty.Shows .empty :=
  ⟨Environment.wellFormed_empty, rfl, rfl, by simp [Environment.empty], rfl, rfl⟩

/-- Looking a key up in an index that was made from a list is looking for the first item with the
key. -/
theorem lookup_map {α κ : Type} [BEq κ] [LawfulBEq κ] (key : α → κ) (place : α → Nat)
    (items : List α) (k : κ) :
    (items.map fun a ↦ (key a, place a)).lookup k = (items.find? (key · == k)).map place := by
  induction items with
  | nil => rfl
  | cons a items ih =>
    by_cases hk : key a = k
    · simp [hk]
    · rw [List.map_cons, List.lookup_cons, beq_false_of_ne (Ne.symm hk), ih,
        List.find?_cons_of_neg (by simpa using hk)]

namespace Shows

/-! ### Looking variables up -/

theorem lookup_byName (h : r.Shows env) (name : String) :
    r.byName.lookup name = (env.find? name).map (·.slot) := by
  rw [h.byName_eq, lookup_map]
  rfl

theorem lookup_bySlot (h : r.Shows env) (slot : Int) :
    r.bySlot.lookup slot = (env.findSlot? slot).map (·.slot) := by
  rw [h.bySlot_eq, lookup_map fun v : Variable ↦ (v.slot : Int)]
  rfl

theorem find?_eq (h : r.Shows env) (name : String) : r.find? name = env.find? name := by
  rw [find?, h.lookup_byName]
  cases hfind : env.find? name with
  | none => rfl
  | some v => exact h.record_eq v (Environment.find?_mem hfind).1

theorem findSlot?_eq (h : r.Shows env) (slot : Int) : r.findSlot? slot = env.findSlot? slot := by
  rw [findSlot?, h.lookup_bySlot]
  cases hfind : env.findSlot? slot with
  | none => rfl
  | some v => exact h.record_eq v (Environment.findSlot?_mem hfind).1

theorem has_eq (h : r.Shows env) (name : String) : r.has name = env.has name := by
  rw [has, h.lookup_byName, Option.isSome_map, Environment.has]

/-- The names in the index are those of the variables. -/
theorem names_eq (h : r.Shows env) : r.byName.map Prod.fst = env.variables.map (·.name) := by
  rw [h.byName_eq, List.map_map]
  rfl

theorem undefined_eq (h : r.Shows env) (name : String) :
    r.undefined name = env.undefined name := by
  rw [undefined, h.names_eq, Environment.undefined]

theorem namesWithHead_eq (h : r.Shows env) (head : String) :
    r.namesWithHead head = env.namesWithHead head := by
  have hsort : env.names = (env.variables.map (·.name)).mergeSort fun a b ↦ decide (a ≤ b) :=
    List.map_mergeSort fun _ _ _ _ ↦ rfl
  rw [namesWithHead, h.names_eq, Environment.namesWithHead, hsort]

/-- **The variables that a registry leads to are those of the environment.** -/
theorem toEnvironment_eq (h : r.Shows env) : r.toEnvironment = env := by
  have hvariables : (env.variables.map fun v ↦ (v.name, v.slot)).filterMap
      (fun entry ↦ r.records[entry.2]?) = env.variables := by
    rw [List.filterMap_map]
    exact (List.filterMap_congr h.record_eq).trans List.filterMap_some
  rw [toEnvironment, h.byName_eq, hvariables, h.nextSlot_eq]

/-! ### Changing variables -/

theorem create (h : r.Shows env) (hname : env.has name = false) (value : Value) :
    (r.create name value).Shows (env.create name value) := by
  have hnames : name ∉ r.byName.map Prod.fst := by
    rw [h.names_eq]
    intro hmem
    rw [Bool.eq_false_iff, ne_eq, Environment.has_iff, Environment.keys, List.map_map] at hname
    exact hname hmem
  have hlt : ∀ v ∈ env.variables, v.slot < env.nextSlot := fun v hv ↦
    h.wellFormed.slot_lt v.key (Environment.key_mem_keys hv)
  have hslots : (r.nextSlot : Int) ∉ r.bySlot.map Prod.fst := by
    rw [h.bySlot_eq, h.nextSlot_eq, List.map_map]
    intro hmem
    obtain ⟨v, hv, hslot⟩ := List.mem_map.1 hmem
    exact absurd (Int.ofNat.inj hslot) (Nat.ne_of_lt (hlt v hv))
  refine ⟨h.wellFormed.create hname value, ?_, ?_, ?_, ?_, ?_⟩
  · rw [Registry.create, putEntry_of_not_mem hnames, h.byName_eq, h.length_records,
      Environment.create, List.map_append]
    rfl
  · rw [Registry.create, putEntry_of_not_mem hslots, h.bySlot_eq, h.length_records, h.nextSlot_eq,
      Environment.create, List.map_append]
    rfl
  · intro v hv
    rcases List.mem_append.1 hv with hv | hv
    · rw [Registry.create, List.getElem?_append_left (h.length_records ▸ hlt v hv)]
      exact h.record_eq v hv
    · obtain rfl := List.mem_singleton.1 hv
      rw [Registry.create, h.nextSlot_eq, ← h.length_records, List.getElem?_concat_length]
  · rw [Registry.create, List.length_append, h.length_records]
    rfl
  · rw [Registry.create, h.nextSlot_eq]
    rfl

/-- A record is changed under its name and under its slot. -/
theorem change (h : r.Shows env) (place : Nat) {f : Variable → Variable}
    (hkey : ∀ w, (f w).key = w.key) :
    (r.change place f).Shows (env.updateWhere (·.slot == place) f) := by
  have hkeys : ∀ w : Variable, (if w.slot == place then f w else w).key = w.key := by
    intro w
    split
    · exact hkey w
    · rfl
  have hslots : ∀ w : Variable, (if w.slot == place then f w else w).slot = w.slot :=
    fun w ↦ congrArg Prod.snd (hkeys w)
  refine ⟨h.wellFormed.of_keys_eq (Environment.keys_updateWhere env _ hkey) rfl, ?_, ?_, ?_, ?_,
    h.nextSlot_eq⟩
  · rw [Registry.change, h.byName_eq, Environment.updateWhere, List.map_map]
    exact List.map_congr_left fun w _ ↦ (hkeys w).symm
  · rw [Registry.change, h.bySlot_eq, Environment.updateWhere, List.map_map]
    exact List.map_congr_left fun w _ ↦ by rw [Function.comp_apply, hslots]
  · rw [Environment.updateWhere, List.forall_mem_map]
    intro w hw
    rw [hslots, Registry.change, List.getElem?_modify, h.record_eq w hw]
    by_cases heq : w.slot = place <;> simp [heq, Ne.symm]
  · rw [Registry.change, List.length_modify]
    exact h.length_records

/-- A variable that is taken out of both indexes is gone. -/
theorem unlist (h : r.Shows env) (hv : env.find? name = some v) :
    ((r.unlistName name).unlistSlot v.slot).Shows (env.erase name) := by
  obtain ⟨hmem, hname⟩ := Environment.find?_mem hv
  have hsame : ∀ w ∈ env.variables, (w.name != name) = ((w.slot : Int) != (v.slot : Int)) := by
    intro w hw
    rw [Bool.eq_iff_iff, bne_iff_ne, bne_iff_ne, ne_eq, ne_eq, not_iff_not, Int.ofNat_inj, ← hname]
    exact ⟨fun heq ↦ congrArg _ (h.wellFormed.eq_of_name hw hmem heq),
      fun heq ↦ congrArg _ (h.wellFormed.eq_of_slot hw hmem heq)⟩
  refine ⟨h.wellFormed.erase name, ?_, ?_, ?_, h.length_records, h.nextSlot_eq⟩
  · show r.byName.filter _ = _
    rw [h.byName_eq, Environment.erase, List.filter_map]
    rfl
  · show r.bySlot.filter _ = _
    rw [h.bySlot_eq, Environment.erase, List.filter_map, List.filter_congr hsame]
    rfl
  · exact fun w hw ↦ h.record_eq w (List.mem_filter.1 hw).1

/-- Marks are taken off one after the other. -/
theorem foldl_change (h : r.Shows env) (vs : List Variable) :
    ((vs.map fun v ↦ (v.name, v.slot)).foldl
      (fun r entry ↦ r.change entry.2 fun v ↦ { v with active := false }) r).Shows
        (env.updateWhere (fun w ↦ decide (w.slot ∈ vs.map (·.slot)))
          fun v ↦ { v with active := false }) := by
  induction vs generalizing r env with
  | nil =>
    have hsame : env.updateWhere (fun w ↦ decide (w.slot ∈ ([] : List Variable).map (·.slot)))
        (fun v ↦ { v with active := false }) = env := by simp [Environment.updateWhere]
    rw [hsame]
    exact h
  | cons v vs ih =>
    have hrest := ih (h.change v.slot (f := fun v ↦ { v with active := false }) fun _ ↦ rfl)
    rw [List.map_cons, List.foldl_cons]
    convert hrest using 1
    simp only [Environment.updateWhere, List.map_map, Environment.mk.injEq, and_true]
    refine List.map_congr_left fun w _ ↦ ?_
    by_cases hv : w.slot = v.slot <;> by_cases hvs : w.slot ∈ vs.map (·.slot) <;> simp_all

/-- A mark that is taken off through the index by name is off under the slot. -/
theorem resetActive (h : r.Shows env) : r.resetActive.Shows env.resetActive := by
  have hall : env.resetActive =
      env.updateWhere (fun w ↦ decide (w.slot ∈ env.variables.map (·.slot)))
        fun v ↦ { v with active := false } := by
    refine congrArg (Environment.mk · env.nextSlot) (List.map_congr_left fun w hw ↦ ?_)
    rw [if_pos rfl, if_pos (decide_eq_true (List.mem_map_of_mem hw))]
  rw [hall, Registry.resetActive, h.byName_eq]
  exact h.foldl_change env.variables

/-! ### Reading and writing by slot -/

theorem load (h : r.Shows env) (slot : Int) :
    match env.load slot with
    | some (value, env') => ∃ r', r.load slot = some (value, r') ∧ r'.Shows env'
    | none => r.load slot = none := by
  rw [Registry.load, h.lookup_bySlot, Environment.load]
  cases hfind : env.findSlot? slot with
  | none => rfl
  | some v =>
    refine ⟨_, ?_, h.change v.slot fun _ ↦ rfl⟩
    simp [h.record_eq v (Environment.findSlot?_mem hfind).1]

theorem storeSlot (h : r.Shows env) (slot : Int) (value : Value) :
    match env.storeSlot slot value with
    | some env' => ∃ r', r.storeSlot slot value = some r' ∧ r'.Shows env'
    | none => r.storeSlot slot value = none := by
  rw [Registry.storeSlot, h.lookup_bySlot, Environment.storeSlot]
  cases hfind : env.findSlot? slot with
  | none => rfl
  | some v => exact ⟨_, rfl, h.change v.slot fun _ ↦ rfl⟩

/-! ### Running programs -/

variable (functions : List Builtin)

/-- An operation that names no slot does the same on every environment. -/
theorem stepOn_of_slot (h : r.Shows env) {operation : Operation} (hslot : operation.slot? = none)
    (stack : Stack) :
    Alike (operation.stepOn functions stack r) (operation.step functions stack env) := by
  have hstep : operation.stepOn functions stack r =
      (operation.step functions stack .empty).map fun next ↦ (next.1, r) := by
    cases operation <;> first | rfl | cases hslot
  obtain ⟨result, hresult⟩ := Operation.exists_step_eq functions hslot stack
  rw [hstep, hresult, hresult]
  cases result with
  | ok stack' => exact .ok h
  | error fault => exact .error fault

theorem stepOn (h : r.Shows env) (operation : Operation) (stack : Stack) :
    Alike (operation.stepOn functions stack r) (operation.step functions stack env) := by
  cases hslot : operation.slot? with
  | none => exact h.stepOn_of_slot functions hslot stack
  | some slot =>
    cases operation with
    | load slot =>
      have hload := h.load slot
      simp only [Operation.step, Operation.stepOn]
      cases hread : env.load slot with
      | some next =>
        rw [hread] at hload
        obtain ⟨r', hr', hshows⟩ := hload
        rw [hr']
        exact .ok hshows
      | none =>
        rw [hread] at hload
        rw [hload]
        exact .error _
    | store slot =>
      cases stack with
      | nil => exact .error _
      | cons value stack =>
        have hstore := h.storeSlot slot value
        simp only [Operation.step, Operation.stepOn]
        cases hwrite : env.storeSlot slot value with
        | some next =>
          rw [hwrite] at hstore
          obtain ⟨r', hr', hshows⟩ := hstore
          rw [hr']
          exact .ok hshows
        | none =>
          rw [hwrite] at hstore
          rw [hstore]
          exact .error _
    | _ => cases hslot

theorem codeRunOn (h : r.Shows env) (code : Code) (stack : Stack) :
    (code.runOn functions stack r).1 = (code.run functions stack env).1 ∧
      (code.runOn functions stack r).2.Shows (code.run functions stack env).2 := by
  induction code generalizing r env stack with
  | nil => exact ⟨rfl, h⟩
  | cons i code ih =>
    have hstep := h.stepOn functions i.operation stack
    rw [Code.runOn, Code.run]
    generalize i.operation.stepOn functions stack r = next at hstep
    generalize i.operation.step functions stack env = next' at hstep
    cases hstep with
    | ok hshows => exact ih hshows _
    | error fault => exact ⟨rfl, h⟩

/-- **A run on a registry is a run on the environment that it shows.** -/
theorem runOn (h : r.Shows env) (p : Program) :
    (p.runOn functions r).1 = (p.run functions env).1 ∧
      (p.runOn functions r).2.Shows (p.run functions env).2 :=
  h.codeRunOn functions p.code []

end Shows

end Registry

end Reckoner
