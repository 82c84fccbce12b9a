import Reckoner.Environment.Snapshot
import Reckoner.Proofs.Program.Execution
import Mathlib.Order.Nat

/-!
# What happens to an environment

An environment changes in the course of time: variables are made, written, read, copied and taken
out, snapshots are put back, and programs run.  An `Event` is one of these, and
`Environment.afterAll` is what a list of them leaves behind.  An event that fails leaves everything
as it was, but for a program, which keeps what it did before it failed.

Most events leave every variable its name and its slot.  The others are known by
`Event.Retires`: taking a variable out, and putting a copy in its place.

* `Environment.Follows` relates an environment to a later one.  Among the slots that were already
  given out, a variable owns the slot that it owned before unless it was retired, and it owns no
  other.  Each operation has a lemma about it.
* `Environment.follows_after` is the step and `Environment.follows_afterAll` the whole history.
* `Environment.Reachable` are the environments that can come up at all; they are well-formed.
-/

set_option autoImplicit false

namespace Reckoner

namespace Environment

/-! ## Later environments -/

/-- An environment comes after another, and the variables of some names were retired in between. -/
structure Follows (retired : String → Prop) (env env' : Environment) : Prop where
  /-- Names and slots are in order. -/
  wellFormed : env'.WellFormed
  /-- Slots that were given out stay given out. -/
  nextSlot_le : env.nextSlot ≤ env'.nextSlot
  /-- Among the old slots, those stay owned whose variables were not retired. -/
  owns_iff : ∀ name slot, slot < env.nextSlot →
    (env'.Owns name slot ↔ env.Owns name slot ∧ ¬ retired name)

namespace Follows

variable {retired retired' : String → Prop} {env env' env'' : Environment}

theorem of_keys_eq (h : env.WellFormed) (hkeys : env'.keys = env.keys)
    (hnext : env'.nextSlot = env.nextSlot) : Follows (fun _ ↦ False) env env' :=
  ⟨h.of_keys_eq hkeys hnext, hnext.ge, fun name slot _ ↦ by simp [Owns, hkeys]⟩

theorem refl (h : env.WellFormed) : Follows (fun _ ↦ False) env env := of_keys_eq h rfl rfl

/-- Nothing happened, and only names that are not there count as retired. -/
theorem unchanged (h : env.WellFormed) (heq : env' = env)
    (hretired : ∀ name slot, env.Owns name slot → ¬ retired name) : Follows retired env env' := by
  subst heq
  exact ⟨h, le_rfl, fun name slot _ ↦ ⟨fun hown ↦ ⟨hown, hretired name slot hown⟩, And.left⟩⟩

theorem trans (h : Follows retired env env') (h' : Follows retired' env' env'') :
    Follows (fun name ↦ retired name ∨ retired' name) env env'' := by
  refine ⟨h'.wellFormed, h.nextSlot_le.trans h'.nextSlot_le, fun name slot hslot ↦ ?_⟩
  rw [h'.owns_iff name slot (hslot.trans_le h.nextSlot_le), h.owns_iff name slot hslot, not_or,
    and_assoc]

theorem congr (h : Follows retired env env') (hiff : ∀ name, retired name ↔ retired' name) :
    Follows retired' env env' := by
  refine ⟨h.wellFormed, h.nextSlot_le, fun name slot hslot ↦ ?_⟩
  rw [h.owns_iff name slot hslot, hiff]

/-- A slot whose variable was retired is owned by none. -/
theorem not_owns (h : Follows retired env env') (henv : env.WellFormed) {name : String} {slot : Nat}
    (hown : env.Owns name slot) (hretired : retired name) (other : String) :
    ¬ env'.Owns other slot := by
  intro hother
  obtain ⟨hold, hnot⟩ := (h.owns_iff other slot (henv.slot_lt _ hown)).1 hother
  have hname : other = name :=
    congrArg Prod.fst (List.inj_on_of_nodup_map henv.slots_nodup hold hown rfl)
  exact hnot (hname ▸ hretired)

/-- A variable that was not retired still owns its slot. -/
theorem owns (h : Follows retired env env') (henv : env.WellFormed) {name : String} {slot : Nat}
    (hown : env.Owns name slot) (hretired : ¬ retired name) : env'.Owns name slot :=
  (h.owns_iff name slot (henv.slot_lt _ hown)).2 ⟨hown, hretired⟩

end Follows

/-! ## Single changes -/

variable {env env' : Environment}

theorem follows_create (h : env.WellFormed) {name : String} (hname : env.has name = false)
    (value : Value) : Follows (fun _ ↦ False) env (env.create name value) := by
  refine ⟨h.create hname value, Nat.le_succ _, fun other slot hslot ↦ ?_⟩
  have hne : ¬ slot = env.nextSlot := Nat.ne_of_lt hslot
  simp [Owns, hne]

theorem follows_erase (h : env.WellFormed) (name : String) :
    Follows (fun other ↦ other = name) env (env.erase name) := by
  refine ⟨h.erase name, le_rfl, fun other slot _ ↦ ?_⟩
  simp [Owns]

theorem follows_put (h : env.WellFormed) (name : String) (value : Value) :
    Follows (fun _ ↦ False) env (env.put name value) := by
  by_cases hhas : env.has name = true
  · obtain ⟨hkeys, hnext⟩ := keys_put hhas value
    exact .of_keys_eq h hkeys hnext
  · rw [put, if_neg hhas]
    exact follows_create h (Bool.eq_false_iff.2 hhas) value

theorem follows_putAll (h : env.WellFormed) (values : List (String × Value)) :
    Follows (fun _ ↦ False) env (env.putAll values) := by
  induction values generalizing env with
  | nil => exact .refl h
  | cons entry values ih =>
    have hput := follows_put h entry.1 entry.2
    exact (hput.trans (ih hput.wellFormed)).congr (by simp)

/-- What a copy under another name leaves behind. -/
theorem copy_eq_ok_iff {newName oldName : String} (hne : newName ≠ oldName) :
    env.copy newName oldName = .ok env' ↔
      ∃ v, env.find? oldName = some v ∧ env' = (env.erase newName).create newName v.value := by
  unfold copy lookup
  cases env.find? oldName with
  | none => simp [bind, Except.bind]
  | some v => simp [bind, Except.bind, pure, Except.pure, hne, eq_comm]

theorem follows_copy (h : env.WellFormed) {newName oldName : String} (hne : newName ≠ oldName)
    (hcopy : env.copy newName oldName = .ok env') :
    Follows (fun name ↦ name = newName) env env' := by
  obtain ⟨v, _, rfl⟩ := (copy_eq_ok_iff hne).1 hcopy
  have herase := follows_erase h newName
  have hcreate := follows_create herase.wellFormed (has_erase env newName) v.value
  exact (herase.trans hcreate).congr (by simp)

/-- A copy takes no name away. -/
theorem has_of_copy {newName oldName name : String} (hne : newName ≠ oldName)
    (hcopy : env.copy newName oldName = .ok env') (hhas : env.has name = true) :
    env'.has name = true := by
  obtain ⟨v, _, rfl⟩ := (copy_eq_ok_iff hne).1 hcopy
  rw [has_iff] at hhas ⊢
  by_cases hname : name = newName
  · simp [hname]
  · obtain ⟨k, hk, rfl⟩ := List.mem_map.1 hhas
    exact List.mem_map.2 ⟨k, by simp [hk, hname], rfl⟩

/-! ## Copies of many variables -/

/-- Copies that are made one after the other, from variables that are there, all succeed, and retire
what stood under the new names. -/
theorem follows_copyAll (h : env.WellFormed) {target : String → String} {sources : List String}
    (hsources : ∀ name ∈ sources, env.has name = true ∧ target name ≠ name) :
    ∃ env', sources.foldlM (fun env name ↦ env.copy (target name) name) env = .ok env' ∧
      Follows (fun name ↦ ∃ source ∈ sources, target source = name) env env' := by
  induction sources generalizing env with
  | nil => exact ⟨env, rfl, (Follows.refl h).congr (by simp)⟩
  | cons source sources ih =>
    obtain ⟨⟨hhas, hne⟩, hsources⟩ := List.forall_mem_cons.1 hsources
    obtain ⟨v, hv⟩ := Option.isSome_iff_exists.1 hhas
    have hcopy := (copy_eq_ok_iff hne).2 ⟨v, hv, rfl⟩
    have hfollows := follows_copy h hne hcopy
    obtain ⟨env', hall, hrest⟩ := ih hfollows.wellFormed fun name hname ↦
      ⟨has_of_copy hne hcopy (hsources name hname).1, (hsources name hname).2⟩
    refine ⟨env', ?_, (hfollows.trans hrest).congr fun name ↦ ?_⟩
    · rw [List.foldlM_cons, hcopy]
      exact hall
    · rw [List.exists_mem_cons_iff, eq_comm]

theorem replaceHead_ne {oldHead newHead : String} (hne : oldHead ≠ newHead) {name : String}
    (hhead : startsWith oldHead name = true) : replaceHead oldHead newHead name ≠ name := by
  intro heq
  have hlist := congrArg String.toList heq
  obtain ⟨rest, hrest⟩ := List.isPrefixOf_iff_prefix.1 hhead
  rw [replaceHead, String.toList_append, String.toList_ofList, ← hrest, ← String.length_toList,
    List.drop_left] at hlist
  exact hne (String.toList_inj.1 (List.append_cancel_right hlist).symm)

/-- The names that a copy of a set makes. -/
def copyTargets (env : Environment) (oldHead newHead : String) : List String :=
  (env.namesWithHead oldHead).map (replaceHead oldHead newHead)

theorem mem_names_iff {name : String} : name ∈ env.names ↔ env.has name = true := by
  rw [has_iff, keys, List.map_map]
  exact ((List.mergeSort_perm _ _).map _).mem_iff

/-- The names with a head are there, and are different with another head. -/
theorem forall_mem_namesWithHead (env : Environment) {oldHead newHead : String}
    (hne : oldHead ≠ newHead) :
    ∀ name ∈ env.namesWithHead oldHead,
      env.has name = true ∧ replaceHead oldHead newHead name ≠ name := by
  intro name hname
  obtain ⟨hmem, hhead⟩ := List.mem_filter.1 hname
  exact ⟨mem_names_iff.1 hmem, replaceHead_ne hne hhead⟩

/-- **A copy of a set** is made of copies, one after the other.  It fails only if there is nothing
to copy, and retires what stood under the new names. -/
theorem exists_copyAll (h : env.WellFormed) {oldHead newHead : String} (hne : oldHead ≠ newHead)
    (hsome : env.namesWithHead oldHead ≠ []) :
    ∃ env', (env.namesWithHead oldHead).foldlM
        (fun env name ↦ env.copy (replaceHead oldHead newHead name) name) env = .ok env' ∧
      env.copySet oldHead newHead =
        .ok ((env.copyTargets oldHead newHead).mergeSort fun a b ↦ decide (a ≤ b), env') ∧
      Follows (fun name ↦ name ∈ env.copyTargets oldHead newHead) env env' := by
  obtain ⟨env', hall, hfollows⟩ := follows_copyAll h (env.forall_mem_namesWithHead hne)
  refine ⟨env', hall, ?_, hfollows.congr fun name ↦ by rw [copyTargets, List.mem_map]⟩
  rw [copySet, if_neg hne]
  split
  · next hnone => exact absurd hnone hsome
  · rw [hall]
    rfl

theorem exists_copySet (h : env.WellFormed) {oldHead newHead : String} (hne : oldHead ≠ newHead)
    (hsome : env.namesWithHead oldHead ≠ []) :
    ∃ result, env.copySet oldHead newHead = .ok result ∧
      Follows (fun name ↦ name ∈ env.copyTargets oldHead newHead) env result.2 := by
  obtain ⟨env', _, hcopy, hfollows⟩ := exists_copyAll h hne hsome
  exact ⟨_, hcopy, hfollows⟩

end Environment

/-! ## Events -/

/-- Something that happens to an environment. -/
inductive Event where
  | define (name : String) (value : Datum)
  | set (name : String) (value : Datum)
  | remove (name : String)
  | get (name : String)
  | copy (newName oldName : String)
  | copySet (oldHead newHead : String)
  | storeSlot (slot : Int) (value : Value)
  | resetActive
  /-- A snapshot is put back. -/
  | update (data : Datum)
  /-- The snapshot in the text of a document is put back. -/
  | restore (text : String)
  /-- A program runs, on any functions. -/
  | run (functions : List Builtin) (program : Program)

namespace Environment

/-- What an event leaves behind. -/
def after (env : Environment) : Event → Environment
  | .define name value => (env.define name value).toOption.getD env
  | .set name value => (env.set name value).toOption.getD env
  | .remove name => (env.remove name).toOption.getD env
  | .get name => ((env.get name).map Prod.snd).toOption.getD env
  | .copy newName oldName => (env.copy newName oldName).toOption.getD env
  | .copySet oldHead newHead => ((env.copySet oldHead newHead).map Prod.snd).toOption.getD env
  | .storeSlot slot value => (env.storeSlot slot value).getD env
  | .resetActive => env.resetActive
  | .update data => (env.update data).toOption.getD env
  | .restore text => (env.restore text).toOption.getD env
  | .run functions program => (program.run functions env).2

/-- What several events leave behind, one after the other. -/
def afterAll (env : Environment) (events : List Event) : Environment := events.foldl after env

@[simp] theorem afterAll_nil (env : Environment) : env.afterAll [] = env := rfl

@[simp] theorem afterAll_cons (env : Environment) (event : Event) (events : List Event) :
    env.afterAll (event :: events) = (env.after event).afterAll events := rfl

theorem afterAll_append (env : Environment) (first second : List Event) :
    env.afterAll (first ++ second) = (env.afterAll first).afterAll second :=
  List.foldl_append

/-- An event takes the variable of a name out, or puts a copy in its place. -/
def Retires (env : Environment) (name : String) : Event → Prop
  | .remove removed => name = removed
  | .copy newName oldName => name = newName ∧ newName ≠ oldName ∧ env.has oldName = true
  | .copySet oldHead newHead => oldHead ≠ newHead ∧ name ∈ env.copyTargets oldHead newHead
  | _ => False

/-- Some event of several retires the variable of a name. -/
def Retired (env : Environment) (events : List Event) (name : String) : Prop :=
  ∃ before event rest, events = before ++ event :: rest ∧ (env.afterAll before).Retires name event

theorem retired_nil (env : Environment) (name : String) : ¬ env.Retired [] name := by
  rintro ⟨before, event, rest, h, _⟩
  simp at h

theorem retired_cons {env : Environment} {event : Event} {events : List Event} {name : String} :
    env.Retired (event :: events) name ↔
      env.Retires name event ∨ (env.after event).Retired events name := by
  refine ⟨?_, ?_⟩
  · rintro ⟨_ | ⟨first, before⟩, last, rest, h, hretires⟩
    · obtain ⟨rfl, rfl⟩ := List.cons.inj h
      exact .inl hretires
    · obtain ⟨rfl, rfl⟩ := List.cons.inj h
      exact .inr ⟨before, last, rest, rfl, hretires⟩
  · rintro (hretires | ⟨before, last, rest, rfl, hretires⟩)
    · exact ⟨[], event, events, rfl, hretires⟩
    · exact ⟨event :: before, last, rest, rfl, hretires⟩

theorem follows_after_remove {env : Environment} (h : env.WellFormed) (name : String) :
    Follows (fun other ↦ env.Retires other (.remove name)) env (env.after (.remove name)) := by
  simp only [after, remove]
  cases hlookup : env.lookup name with
  | ok v => exact follows_erase h name
  | error e =>
    refine .unchanged h rfl ?_
    rintro other slot hown rfl
    obtain ⟨v, hv, _⟩ := hown.exists_variable h
    rw [lookup, hv] at hlookup
    cases hlookup

theorem follows_after_copy {env : Environment} (h : env.WellFormed) (newName oldName : String) :
    Follows (fun name ↦ env.Retires name (.copy newName oldName)) env
      (env.after (.copy newName oldName)) := by
  by_cases hne : newName = oldName
  · refine .unchanged h ?_ (by simp [Retires, hne])
    simp only [after, copy, hne]
    cases env.lookup oldName <;> rfl
  · cases hfind : env.find? oldName with
    | some v =>
      have hcopy := (copy_eq_ok_iff hne).2 ⟨v, hfind, rfl⟩
      have hfollows := follows_copy h hne hcopy
      simp only [after, hcopy]
      exact hfollows.congr (by simp [Retires, hne, has, hfind])
    | none =>
      refine .unchanged h ?_ (by simp [Retires, has, hfind])
      simp only [after, copy, lookup, hfind]
      rfl

theorem follows_after_copySet {env : Environment} (h : env.WellFormed) (oldHead newHead : String) :
    Follows (fun name ↦ env.Retires name (.copySet oldHead newHead)) env
      (env.after (.copySet oldHead newHead)) := by
  by_cases hne : oldHead = newHead
  · refine .unchanged h ?_ (by simp [Retires, hne])
    simp only [after, copySet, if_pos hne]
    rfl
  · by_cases hsome : env.namesWithHead oldHead = []
    · refine .unchanged h ?_ (by simp [Retires, copyTargets, hsome])
      simp only [after, copySet, if_neg hne, hsome]
      rfl
    · obtain ⟨result, hcopy, hfollows⟩ := exists_copySet h hne hsome
      simp only [after, hcopy]
      exact hfollows.congr (by simp [Retires, hne])

/-- A snapshot retires nothing, whether it is one or not. -/
theorem follows_update {env : Environment} (h : env.WellFormed) (data : Datum) :
    Follows (fun _ ↦ False) env ((env.update data).toOption.getD env) := by
  rw [update]
  cases readSnapshot data with
  | ok values => exact follows_putAll h values
  | error e => exact .refl h

/-- **The step**: an event keeps names and slots in order, and changes the owner of no slot, but for
the variables that it retires. -/
theorem follows_after {env : Environment} (h : env.WellFormed) (event : Event) :
    Follows (fun name ↦ env.Retires name event) env (env.after event) := by
  cases event with
  | define name value =>
    simp only [after, define]
    split
    · exact .refl h
    · next hhas =>
      split
      · exact follows_create h (Bool.eq_false_iff.2 hhas) _
      · exact .refl h
  | set name value =>
    simp only [after, set]
    cases Value.ofDatum value with
    | ok value => exact follows_put h name value
    | error e => exact .refl h
  | remove name => exact follows_after_remove h name
  | get name =>
    simp only [after, get]
    cases env.lookup name with
    | ok v => exact .of_keys_eq h (keys_activate env v.slot) rfl
    | error e => exact .refl h
  | copy newName oldName => exact follows_after_copy h newName oldName
  | copySet oldHead newHead => exact follows_after_copySet h oldHead newHead
  | storeSlot slot value =>
    simp only [after]
    cases hstore : env.storeSlot slot value with
    | some next => exact .of_keys_eq h (keys_storeSlot hstore).1 (keys_storeSlot hstore).2
    | none => exact .refl h
  | resetActive => exact .of_keys_eq h (keys_resetActive env) rfl
  | update data => exact follows_update h data
  | restore text =>
    simp only [after, restore]
    cases readDocument text with
    | ok data => exact follows_update h data
    | error e => exact .refl h
  | run functions program =>
    obtain ⟨hkeys, hnext⟩ := program.keys_run functions env
    exact .of_keys_eq h hkeys hnext

/-- **The history**: after any events, the slots that were given out before are owned by the same
variables, but for those that were retired in between. -/
theorem follows_afterAll {env : Environment} (h : env.WellFormed) (events : List Event) :
    Follows (fun name ↦ env.Retired events name) env (env.afterAll events) := by
  induction events generalizing env with
  | nil => exact (Follows.refl h).congr fun name ↦ iff_of_false id (retired_nil env name)
  | cons event events ih =>
    have hafter := follows_after h event
    exact (hafter.trans (ih hafter.wellFormed)).congr fun _ ↦ retired_cons.symm

/-- An environment can come up in the course of time. -/
def Reachable (env : Environment) : Prop := ∃ events, env = empty.afterAll events

theorem Reachable.wellFormed {env : Environment} (h : env.Reachable) : env.WellFormed := by
  obtain ⟨events, rfl⟩ := h
  exact (follows_afterAll wellFormed_empty events).wellFormed

end Environment

end Reckoner
