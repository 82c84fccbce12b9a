import Reckoner.Proofs.Environment.Creation
import Reckoner.Proofs.Environment.InPlace
import Reckoner.Proofs.Environment.Registry

/-!
# Two indexes in step

A registry is changed one index and one record at a time.  A variable that is taken out leaves the
index by name before anything is known about its slot, a copy takes out what has the new name before
it makes the new record, and a copy of a set or a snapshot that is put back is many such changes,
which can fail half-way.  Here each operation is written on registries in this way.  Unlike on
environments, it can also end because an index leads to no record, or because a slot is to be taken
out of an index that does not have it (`Registry.Stop`).

* `Registry.Tracks` says that an operation on a registry comes to what the operation on the
  environment comes to, and that the registry that is left shows the environment that is left.  This
  rules the other ends out.  `Shows.tracks_call` has a lemma for each operation behind it.
* `Shows.after` is the step and `Shows.afterAll` the history: whatever happens, the registry shows
  the environment.
* `Registry.InStep` is what the two indexes have to do with each other, without a word about
  environments.  It is read off `Shows`, and `Registry.inStep_afterAll` puts together what holds of
  a registry after any events.
-/

set_option autoImplicit false

namespace Reckoner

open Environment

namespace Registry

/-- Why an operation on a registry ends without an answer. -/
inductive Stop where
  /-- The operation fails. -/
  | failure (e : Failure)
  /-- An index leads to a place without a record. -/
  | noRecord (place : Nat)
  /-- A slot is to be taken out of an index that does not have it. -/
  | noSlot (slot : Nat)

/-- What an operation comes to, and the registry that it leaves behind in any case. -/
abbrev Result (α : Type) := Except Stop α × Registry

/-- Goes on with the answer of an operation, unless that has ended without one. -/
def Result.andThen {α β : Type} (result : Result α) (f : α → Registry → Result β) : Result β :=
  match result with
  | (.ok a, r) => f a r
  | (.error stop, r) => (.error stop, r)

/-! ## The operations, step by step -/

/-- The record at a place. -/
def recordAt (r : Registry) (place : Nat) : Result Variable :=
  match r.records[place]? with
  | some v => (.ok v, r)
  | none => (.error (.noRecord place), r)

/-- The place of the record of a name. -/
def lookup (r : Registry) (name : String) : Result Nat :=
  match r.byName.lookup name with
  | some place => (.ok place, r)
  | none => (.error (.failure (.variable (r.undefined name))), r)

/-- Makes a variable, and answers the place of its record. -/
def make (r : Registry) (name : String) (value : Value) : Result Nat :=
  (.ok r.records.length, r.create name value)

/-- Makes a variable that is not there. -/
def define (r : Registry) (name : String) (d : Datum) : Result Nat :=
  if r.has name then (.error (.failure (.variable (.alreadyDefined name))), r)
  else
    match Value.ofDatum d with
    | .ok value => r.make name value
    | .error e => (.error (.failure (.intake e)), r)

/-- Writes a variable, or makes it. -/
def assign (r : Registry) (name : String) (d : Datum) : Result Nat :=
  match Value.ofDatum d with
  | .error e => (.error (.failure (.intake e)), r)
  | .ok value =>
    match r.byName.lookup name with
    | none => r.make name value
    | some place => (.ok place, r.change place fun v ↦ { v with value })

/-- Takes a name out of its index, and then the slot of the variable out of the other. -/
def remove (r : Registry) (name : String) : Result Unit :=
  let rest := r.unlistName name
  match r.byName.lookup name with
  | none => (.error (.failure (.variable (rest.undefined name))), rest)
  | some place =>
    (rest.recordAt place).andThen fun v rest ↦
      if (rest.bySlot.lookup (v.slot : Int)).isSome then (.ok (), rest.unlistSlot v.slot)
      else (.error (.noSlot v.slot), rest)

/-- Marks a variable and answers its value. -/
def read (r : Registry) (name : String) : Result Value :=
  (r.lookup name).andThen fun place r ↦
    ((r.change place fun v ↦ { v with active := true }).recordAt place).andThen fun v r ↦
      (.ok v.value, r)

/-- The slot of a variable. -/
def slotOf (r : Registry) (name : String) : Result Nat :=
  (r.lookup name).andThen fun place r ↦ (r.recordAt place).andThen fun v r ↦ (.ok v.slot, r)

/-- Copies a variable, after it has taken out what has the new name.  The value is read off the
record of the source at the end. -/
def copy (r : Registry) (newName oldName : String) : Result Nat :=
  (r.lookup oldName).andThen fun source r ↦
    if newName = oldName then (.ok source, r)
    else
      (if r.has newName then r.remove newName else (.ok (), r)).andThen fun _ r ↦
        (r.recordAt source).andThen fun v r ↦ r.make newName v.value

/-- Copies the variables of several names, one after the other. -/
def copyAll (target : String → String) : List String → Registry → Result Unit
  | [], r => (.ok (), r)
  | name :: names, r => (r.copy (target name) name).andThen fun _ r ↦ copyAll target names r

/-- Copies the variables of all names with a head.  The names are fixed first. -/
def copySet (r : Registry) (oldHead newHead : String) : Result (List String) :=
  if oldHead = newHead then (.ok [], r)
  else
    match r.namesWithHead oldHead with
    | [] => (.error (.failure (.variable (.noneWithHead oldHead))), r)
    | sources =>
      (copyAll (replaceHead oldHead newHead) sources r).andThen fun _ r ↦
        (.ok ((sources.map (replaceHead oldHead newHead)).mergeSort fun a b ↦ decide (a ≤ b)), r)

/-- Writes several variables, one after the other. -/
def assignAll : List (String × Value) → Registry → Result Unit
  | [], r => (.ok (), r)
  | (name, value) :: values, r =>
    (r.assign name (.value value)).andThen fun _ r ↦ assignAll values r

/-- Reads all entries of a snapshot, and then writes them. -/
def update (r : Registry) (data : Datum) : Result Unit :=
  match readSnapshot data with
  | .error e => (.error (.failure (.snapshot e)), r)
  | .ok values => assignAll values r

/-- Reads the text of a document, and then the snapshot in it. -/
def restore (r : Registry) (text : String) : Result Unit :=
  match readDocument text with
  | .error e => (.error (.failure (.snapshot e)), r)
  | .ok data => r.update data

/-- Answers the variable in the record at the place that an operation came to. -/
def Result.variable (result : Result Nat) : Result Answer :=
  result.andThen fun place r ↦ (r.recordAt place).andThen fun v r ↦ (.ok (.variable v), r)

/-- Answers what is made of the answer of an operation. -/
def Result.answer {α : Type} (result : Result α) (f : α → Answer) : Result Answer :=
  result.andThen fun a r ↦ (.ok (f a), r)

/-- A call on a registry. -/
def call (r : Registry) : Call → Result Answer
  | .define name value => (r.define name value).variable
  | .set name value => (r.assign name value).variable
  | .remove name => (r.remove name).answer fun _ ↦ .nothing
  | .get name => (r.read name).answer (.datum <| .value ·)
  | .slotOf name => (r.slotOf name).answer .number
  | .copy newName oldName => (r.copy newName oldName).variable
  | .copySet oldHead newHead => (r.copySet oldHead newHead).answer .texts
  | .update data => (r.update data).answer fun _ ↦ .nothing
  | .restore text => (r.restore text).answer fun _ ↦ .nothing

/-! ## What they come to -/

/-- An operation on a registry comes to what another comes to on the variables, with the same answer
or the same failure, and the registry shows what is left. -/
inductive Tracks {α : Type} : Result α → Except Failure α × Environment → Prop
  | ok {a : α} {r : Registry} {env : Environment} (shows : r.Shows env) :
    Tracks (.ok a, r) (.ok a, env)
  | failure {e : Failure} {r : Registry} {env : Environment} (shows : r.Shows env) :
    Tracks (.error (.failure e), r) (.error e, env)

variable {r : Registry} {env env' : Environment} {name : String} {v : Variable}

namespace Tracks

theorem shows {α : Type} {result : Result α} {outcome : Except Failure α × Environment}
    (h : Tracks result outcome) : result.2.Shows outcome.2 := by
  cases h with
  | ok hshows | failure hshows => exact hshows

end Tracks

namespace Shows

theorem recordAt (h : r.Shows env) (hv : v ∈ env.variables) :
    r.recordAt v.slot = (.ok v, r) := by
  rw [Registry.recordAt, h.record_eq v hv]

theorem lookup_of_find? (h : r.Shows env) (hv : env.find? name = some v) :
    r.lookup name = (.ok v.slot, r) := by
  rw [Registry.lookup, h.lookup_byName, hv]
  rfl

theorem lookup_of_none (h : r.Shows env) (hnone : env.find? name = none) :
    r.lookup name = (.error (.failure (.variable (env.undefined name))), r) := by
  rw [Registry.lookup, h.lookup_byName, hnone, h.undefined_eq]
  rfl

/-- The variable at a place that was made or found under a name. -/
theorem tracks_variable (h : r.Shows env) (hv : env.find? name = some v) {place : Nat}
    (hplace : place = v.slot) :
    Tracks (Result.variable (.ok place, r)) (.ok (Session.variableOf name env), env) := by
  subst hplace
  have hrecord := h.recordAt (find?_mem hv).1
  rw [Session.variableOf, hv]
  simp only [Result.variable, Result.andThen, hrecord]
  exact .ok h

/-- A variable that is made under a new name. -/
theorem tracks_make (h : r.Shows env) (hnone : env.find? name = none) (value : Value) :
    Tracks (r.make name value).variable
      (.ok (Session.variableOf name (env.create name value)), env.create name value) := by
  have hhas : env.has name = false := by
    rw [Environment.has, hnone, Option.isSome_none]
  exact (h.create hhas value).tracks_variable (find?_create_self hnone value) h.length_records

theorem tracks_define (h : r.Shows env) (name : String) (d : Datum) :
    Tracks (r.define name d).variable (InPlace.settle env
      (((env.define name d).mapError .ofDefinition).map
        (InPlace.answered (Session.variableOf name)))) := by
  rw [Registry.define, h.has_eq, Environment.define]
  split
  · exact .failure h
  · next hhas =>
    cases Value.ofDatum d with
    | error e => exact .failure h
    | ok value => exact h.tracks_make (by simpa [Environment.has] using hhas) value

/-- What is written through the index by name is written under the slot. -/
theorem exists_assign (h : r.Shows env) (name : String) {d : Datum} {value : Value}
    (hvalue : Value.ofDatum d = .ok value) :
    ∃ v r', r.assign name d = (.ok v.slot, r') ∧ r'.Shows (env.put name value) ∧
      (env.put name value).find? name = some v := by
  have hself := find?_put_self env name value
  cases hfind : env.find? name with
  | none =>
    have hhas : env.has name = false := by rw [Environment.has, hfind, Option.isSome_none]
    have hput : env.put name value = env.create name value := by
      rw [put, hhas]
      rfl
    rw [hfind, hput] at hself
    refine ⟨_, r.create name value, ?_, hput ▸ h.create hhas value, hput ▸ hself⟩
    simp only [Registry.assign, hvalue, h.lookup_byName, hfind, Option.map_none, make,
      h.length_records, Option.elim_none]
  | some v =>
    have hput : env.put name value =
        env.updateWhere (·.slot == v.slot) fun v ↦ { v with value } := by
      rw [put, if_pos (has_of_find? hfind), h.wellFormed.updateWhere_slot (owns_of_find? hfind)]
    rw [hfind] at hself
    refine ⟨_, r.change v.slot fun v ↦ { v with value }, ?_, hput ▸ h.change v.slot fun _ ↦ rfl,
      hself⟩
    simp only [Registry.assign, hvalue, h.lookup_byName, hfind, Option.map_some, Option.elim_some]

theorem tracks_assign (h : r.Shows env) (name : String) (d : Datum) :
    Tracks (r.assign name d).variable (InPlace.settle env
      (((env.set name d).mapError .intake).map
        (InPlace.answered (Session.variableOf name)))) := by
  rw [Environment.set]
  cases hvalue : Value.ofDatum d with
  | error e =>
    rw [Registry.assign, hvalue]
    exact .failure h
  | ok value =>
    obtain ⟨v, r', hr', hshows, hself⟩ := h.exists_assign name hvalue
    rw [hr']
    exact hshows.tracks_variable hself rfl

theorem unlistName_of_none (h : r.Shows env) (hnone : env.find? name = none) :
    r.unlistName name = r := by
  have hfilter : r.byName.filter (·.1 != name) = r.byName := by
    refine List.filter_eq_self.2 fun entry hentry ↦ ?_
    rw [h.byName_eq] at hentry
    obtain ⟨v, hv, rfl⟩ := List.mem_map.1 hentry
    simpa [Environment.find?] using List.find?_eq_none.1 hnone v hv
  rw [unlistName, hfilter]

theorem remove_of_none (h : r.Shows env) (hnone : env.find? name = none) :
    r.remove name = (.error (.failure (.variable (env.undefined name))), r) := by
  simp only [Registry.remove, h.lookup_byName, hnone, h.unlistName_of_none hnone, h.undefined_eq,
    Option.map_none]

/-- The slot of a variable that is taken out is in the index by slot. -/
theorem remove_of_find? (h : r.Shows env) (hv : env.find? name = some v) :
    r.remove name = (.ok (), (r.unlistName name).unlistSlot v.slot) := by
  obtain ⟨w, hw, hslot, _, hwslot⟩ := (owns_of_find? hv).exists_variable h.wellFormed
  obtain rfl : v = w := Option.some.inj (hv.symm.trans hw)
  have hrecord : (r.unlistName name).recordAt v.slot = (.ok v, r.unlistName name) := by
    rw [Registry.recordAt, unlistName, h.record_eq v (find?_mem hv).1]
  have hlisted : ((r.unlistName name).bySlot.lookup (v.slot : Int)).isSome = true := by
    rw [unlistName, h.lookup_bySlot, hslot]
    rfl
  simp only [Registry.remove, h.lookup_byName, hv, Option.map_some, hrecord, Result.andThen,
    if_pos hlisted]

theorem tracks_remove (h : r.Shows env) (name : String) :
    Tracks ((r.remove name).answer fun _ ↦ .nothing) (InPlace.settle env
      (((env.remove name).mapError .variable).map (InPlace.answered fun _ ↦ .nothing))) := by
  rw [Environment.remove, Environment.lookup]
  cases hfind : env.find? name with
  | none =>
    rw [h.remove_of_none hfind]
    exact .failure h
  | some v =>
    rw [h.remove_of_find? hfind]
    exact .ok (h.unlist hfind)

/-- A mark that is set through the index by name is set under the slot. -/
theorem tracks_read (h : r.Shows env) (name : String) :
    Tracks ((r.read name).answer (.datum <| .value ·)) (InPlace.settle env
      (((env.get name).mapError .variable).map (Prod.map (.datum <| .value ·) id))) := by
  rw [Registry.read, Environment.get, Environment.lookup]
  cases hfind : env.find? name with
  | none =>
    rw [h.lookup_of_none hfind]
    exact .failure h
  | some v =>
    have hmarked : (r.change v.slot fun v ↦ { v with active := true }).records[v.slot]? =
        some { v with active := true } := by
      rw [Registry.change, List.getElem?_modify, h.record_eq v (find?_mem hfind).1]
      simp
    rw [h.lookup_of_find? hfind]
    simp only [Result.andThen, Registry.recordAt, hmarked]
    exact .ok (h.change v.slot fun _ ↦ rfl)

theorem tracks_slotOf (h : r.Shows env) (name : String) :
    Tracks ((r.slotOf name).answer .number) (InPlace.settle env
      (((env.slotOf name).mapError .variable).map (.number ·, env))) := by
  rw [Registry.slotOf, Environment.slotOf, Environment.lookup]
  cases hfind : env.find? name with
  | none =>
    rw [h.lookup_of_none hfind]
    exact .failure h
  | some v =>
    rw [h.lookup_of_find? hfind]
    simp only [Result.andThen, h.recordAt (find?_mem hfind).1]
    exact .ok h

/-! ### Copies -/

/-- A copy takes out what has the new name.  The record of the source stays where it is. -/
theorem exists_copy (h : r.Shows env) {newName oldName : String}
    (hv : env.find? oldName = some v) (hne : newName ≠ oldName) :
    ∃ r', r.copy newName oldName = (.ok env.nextSlot, r') ∧
      r'.Shows ((env.erase newName).create newName v.value) := by
  have hremoved : ∃ r', (if r.has newName then r.remove newName else (.ok (), r)) = (.ok (), r') ∧
      r'.Shows (env.erase newName) := by
    rw [h.has_eq]
    cases hnew : env.find? newName with
    | some w =>
      rw [if_pos (has_of_find? hnew), h.remove_of_find? hnew]
      exact ⟨_, rfl, h.unlist hnew⟩
    | none =>
      have hnot : ¬ env.has newName = true := by simp [Environment.has, hnew]
      rw [if_neg hnot, InPlace.erase_of_find? hnew]
      exact ⟨_, rfl, h⟩
  obtain ⟨r', hr', hshows⟩ := hremoved
  have hsource : (env.erase newName).find? oldName = some v := by
    rw [find?_erase_of_ne env (Ne.symm hne), hv]
  refine ⟨r'.create newName v.value, ?_, hshows.create (has_erase env newName) v.value⟩
  have hrecord := hshows.recordAt (find?_mem hsource).1
  simp only [Registry.copy, h.lookup_of_find? hv, Result.andThen, if_neg hne, hr', hrecord, make,
    hshows.length_records, nextSlot_erase]

theorem tracks_copy (h : r.Shows env) (newName oldName : String) :
    Tracks (r.copy newName oldName).variable (InPlace.settle env
      (((env.copy newName oldName).mapError .variable).map
        (InPlace.answered (Session.variableOf newName)))) := by
  cases hfind : env.find? oldName with
  | none =>
    rw [Registry.copy, h.lookup_of_none hfind, Environment.copy, Environment.lookup, hfind]
    exact .failure h
  | some v =>
    by_cases hne : newName = oldName
    · subst hne
      have hcopy : env.copy newName newName = .ok env := by
        simp only [Environment.copy, Environment.lookup, hfind]
        rfl
      have hsame : r.copy newName newName = (.ok v.slot, r) := by
        simp only [Registry.copy, h.lookup_of_find? hfind, Result.andThen, if_pos]
      rw [hcopy, hsame]
      exact h.tracks_variable hfind rfl
    · obtain ⟨r', hr', hshows⟩ := h.exists_copy hfind hne
      have hgone : (env.erase newName).find? newName = none := find?_erase_self env newName
      rw [hr', (copy_eq_ok_iff hne).2 ⟨v, hfind, rfl⟩]
      exact hshows.tracks_variable (find?_create_self hgone v.value) rfl

theorem exists_copyAll (h : r.Shows env) {target : String → String} {sources : List String}
    (hsources : ∀ name ∈ sources, env.has name = true ∧ target name ≠ name)
    (hall : sources.foldlM (fun env name ↦ env.copy (target name) name) env = .ok env') :
    ∃ r', copyAll target sources r = (.ok (), r') ∧ r'.Shows env' := by
  induction sources generalizing r env with
  | nil =>
    cases hall
    exact ⟨r, rfl, h⟩
  | cons source sources ih =>
    obtain ⟨⟨hhas, hne⟩, hsources⟩ := List.forall_mem_cons.1 hsources
    obtain ⟨v, hv⟩ := Option.isSome_iff_exists.1 hhas
    have hcopy := (copy_eq_ok_iff hne).2 ⟨v, hv, rfl⟩
    obtain ⟨r', hr', hshows⟩ := h.exists_copy hv hne
    obtain ⟨r'', hr'', hshows'⟩ := ih hshows
      (fun name hname ↦ ⟨has_of_copy hne hcopy (hsources name hname).1, (hsources name hname).2⟩)
      (by rwa [List.foldlM_cons, hcopy] at hall)
    refine ⟨r'', ?_, hshows'⟩
    rw [copyAll, hr']
    exact hr''

theorem tracks_copySet (h : r.Shows env) (oldHead newHead : String) :
    Tracks ((r.copySet oldHead newHead).answer .texts) (InPlace.settle env
      (((env.copySet oldHead newHead).mapError .variable).map (Prod.map .texts id))) := by
  by_cases hheads : oldHead = newHead
  · rw [Registry.copySet, Environment.copySet, if_pos hheads, if_pos hheads]
    exact .ok h
  · have hsources := env.forall_mem_namesWithHead hheads
    obtain ⟨env', hall, _⟩ := follows_copyAll h.wellFormed hsources
    obtain ⟨r', hr', hshows⟩ := h.exists_copyAll hsources hall
    rw [Registry.copySet, Environment.copySet, if_neg hheads, if_neg hheads, h.namesWithHead_eq]
    cases hnames : env.namesWithHead oldHead with
    | nil => exact .failure h
    | cons name names =>
      rw [hnames] at hall hr'
      simp only [hr', hall, Result.andThen]
      exact .ok hshows

/-! ### Snapshots -/

/-- Writing several values does not stop half-way. -/
theorem exists_assignAll (h : r.Shows env) (values : List (String × Value)) :
    ∃ r', assignAll values r = (.ok (), r') ∧ r'.Shows (env.putAll values) := by
  induction values generalizing r env with
  | nil => exact ⟨r, rfl, h⟩
  | cons entry values ih =>
    obtain ⟨v, r', hr', hshows, _⟩ := h.exists_assign entry.1 (d := .value entry.2) rfl
    obtain ⟨r'', hr'', hshows'⟩ := ih hshows
    refine ⟨r'', ?_, hshows'⟩
    rw [assignAll, hr']
    exact hr''

theorem tracks_update (h : r.Shows env) (data : Datum) :
    Tracks ((r.update data).answer fun _ ↦ .nothing) (InPlace.settle env
      (((env.update data).mapError .snapshot).map (InPlace.answered fun _ ↦ .nothing))) := by
  rw [Registry.update, Environment.update]
  cases readSnapshot data with
  | error e => exact .failure h
  | ok values =>
    obtain ⟨r', hr', hshows⟩ := h.exists_assignAll values
    simp only [hr']
    exact .ok hshows

theorem tracks_restore (h : r.Shows env) (text : String) :
    Tracks ((r.restore text).answer fun _ ↦ .nothing) (InPlace.settle env
      (((env.restore text).mapError .snapshot).map (InPlace.answered fun _ ↦ .nothing))) := by
  rw [Registry.restore, Environment.restore]
  cases readDocument text with
  | error e => exact .failure h
  | ok data => exact h.tracks_update data

/-- **A call on a registry comes to what the operation on the environment comes to.**  It never ends
because an index leads nowhere, or does not have what the other one has. -/
theorem tracks_call (h : r.Shows env) (call : Call) :
    Tracks (r.call call) (InPlace.settle env (call.outcome env)) := by
  cases call with
  | define name value => exact h.tracks_define name value
  | set name value => exact h.tracks_assign name value
  | remove name => exact h.tracks_remove name
  | get name => exact h.tracks_read name
  | slotOf name => exact h.tracks_slotOf name
  | copy newName oldName => exact h.tracks_copy newName oldName
  | copySet oldHead newHead => exact h.tracks_copySet oldHead newHead
  | update data => exact h.tracks_update data
  | restore text => exact h.tracks_restore text

end Shows

/-! ## Events -/

/-- What an event leaves behind, whether it succeeds or fails. -/
def after (r : Registry) : Event → Registry
  | .define name value => (r.define name value).2
  | .set name value => (r.assign name value).2
  | .remove name => (r.remove name).2
  | .get name => (r.read name).2
  | .copy newName oldName => (r.copy newName oldName).2
  | .copySet oldHead newHead => (r.copySet oldHead newHead).2
  | .storeSlot slot value => (r.storeSlot slot value).getD r
  | .resetActive => r.resetActive
  | .update data => (r.update data).2
  | .restore text => (r.restore text).2
  | .run functions program => (program.runOn functions r).2

/-- What several events leave behind, one after the other. -/
def afterAll (r : Registry) (events : List Event) : Registry := events.foldl after r

@[simp] theorem Result.variable_snd (result : Result Nat) : result.variable.2 = result.2 := by
  rcases result with ⟨stop | place, r⟩
  · rfl
  · simp only [Result.variable, Result.andThen, recordAt]
    cases r.records[place]? <;> rfl

@[simp] theorem Result.answer_snd {α : Type} (result : Result α) (f : α → Answer) :
    (result.answer f).2 = result.2 := by
  rcases result with ⟨_ | _, _⟩ <;> rfl

/-- What an operation leaves, told by its answer. -/
theorem settle_snd {α : Type} (env : Environment) (outcome : Except Failure (α × Environment)) :
    (InPlace.settle env outcome).2 = (outcome.map Prod.snd).toOption.getD env := by
  cases outcome <;> rfl

theorem getD_answered {ε : Type} (outcome : Except ε Environment) (env : Environment)
    (f : ε → Failure) (answer : Environment → Answer) :
    (((outcome.mapError f).map (InPlace.answered answer)).map Prod.snd).toOption.getD env =
      outcome.toOption.getD env := by
  cases outcome <;> rfl

theorem getD_prodMap {α ε : Type} (outcome : Except ε (α × Environment)) (env : Environment)
    (f : ε → Failure) (answer : α → Answer) :
    (((outcome.mapError f).map (Prod.map answer id)).map Prod.snd).toOption.getD env =
      (outcome.map Prod.snd).toOption.getD env := by
  cases outcome <;> rfl

namespace Shows

theorem after_call (h : r.Shows env) (call : Call) :
    (r.call call).2.Shows (((call.outcome env).map Prod.snd).toOption.getD env) :=
  settle_snd env (call.outcome env) ▸ (h.tracks_call call).shows

/-- **The step**: an event leaves a registry that shows the environment that it leaves. -/
theorem after (h : r.Shows env) (event : Event) : (r.after event).Shows (env.after event) := by
  cases event with
  | define name value =>
    have hcall := h.after_call (.define name value)
    rwa [Registry.call, Call.outcome, Result.variable_snd, getD_answered] at hcall
  | set name value =>
    have hcall := h.after_call (.set name value)
    rwa [Registry.call, Call.outcome, Result.variable_snd, getD_answered] at hcall
  | remove name =>
    have hcall := h.after_call (.remove name)
    rwa [Registry.call, Call.outcome, Result.answer_snd, getD_answered] at hcall
  | get name =>
    have hcall := h.after_call (.get name)
    rwa [Registry.call, Call.outcome, Result.answer_snd, getD_prodMap] at hcall
  | copy newName oldName =>
    have hcall := h.after_call (.copy newName oldName)
    rwa [Registry.call, Call.outcome, Result.variable_snd, getD_answered] at hcall
  | copySet oldHead newHead =>
    have hcall := h.after_call (.copySet oldHead newHead)
    rwa [Registry.call, Call.outcome, Result.answer_snd, getD_prodMap] at hcall
  | update data =>
    have hcall := h.after_call (.update data)
    rwa [Registry.call, Call.outcome, Result.answer_snd, getD_answered] at hcall
  | restore text =>
    have hcall := h.after_call (.restore text)
    rwa [Registry.call, Call.outcome, Result.answer_snd, getD_answered] at hcall
  | storeSlot slot value =>
    have hstore := h.storeSlot slot value
    rw [Registry.after, Environment.after]
    cases hwrite : env.storeSlot slot value with
    | some next =>
      rw [hwrite] at hstore
      obtain ⟨r', hr', hshows⟩ := hstore
      rw [hr']
      exact hshows
    | none =>
      rw [hwrite] at hstore
      rw [hstore]
      exact h
  | resetActive => exact h.resetActive
  | run functions program => exact (h.runOn functions program).2

/-- **The history**: after any events, a registry shows what the environment is then. -/
theorem afterAll (h : r.Shows env) (events : List Event) :
    (r.afterAll events).Shows (env.afterAll events) := by
  induction events generalizing r env with
  | nil => exact h
  | cons event events ih => exact ih (h.after event)

end Shows

/-! ## What always holds -/

/-- The two indexes are in step. -/
structure InStep (r : Registry) : Prop where
  /-- No name is in its index twice. -/
  names_nodup : (r.byName.map Prod.fst).Nodup
  /-- No slot is in its index twice. -/
  slots_nodup : (r.bySlot.map Prod.fst).Nodup
  /-- The indexes lead to the same records. -/
  same_places : ∀ place,
    (∃ name, r.byName.lookup name = some place) ↔ ∃ slot, r.bySlot.lookup slot = some place
  /-- What a name leads to is a variable of that name. -/
  name_eq : ∀ name place, r.byName.lookup name = some place →
    ∃ v, r.records[place]? = some v ∧ v.name = name
  /-- What a slot leads to is a variable with that slot. -/
  slot_eq : ∀ slot place, r.bySlot.lookup slot = some place →
    ∃ v, r.records[place]? = some v ∧ (v.slot : Int) = slot
  /-- The slot of a name leads to the record that the name leads to, and so to the same value and
  the same mark. -/
  slotOf_eq : ∀ name v, r.find? name = some v →
    r.slotOf name = (.ok v.slot, r) ∧ r.bySlot.lookup (v.slot : Int) = r.byName.lookup name ∧
      r.findSlot? v.slot = some v
  /-- The variables of different names have different slots. -/
  slot_inj : ∀ name name' v v', r.find? name = some v → r.find? name' = some v' →
    v.slot = v'.slot → name = name'
  /-- The slots in the index were given out. -/
  slot_lt : ∀ slot place, r.bySlot.lookup slot = some place → 0 ≤ slot ∧ slot < r.nextSlot

namespace Shows

theorem lookup_byName_iff (h : r.Shows env) {place : Nat} :
    r.byName.lookup name = some place ↔ ∃ v, env.find? name = some v ∧ v.slot = place := by
  rw [h.lookup_byName, Option.map_eq_some_iff]

theorem lookup_bySlot_iff (h : r.Shows env) {slot : Int} {place : Nat} :
    r.bySlot.lookup slot = some place ↔ ∃ v, env.findSlot? slot = some v ∧ v.slot = place := by
  rw [h.lookup_bySlot, Option.map_eq_some_iff]

/-- What is found under a name is found under its slot. -/
theorem findSlot?_of_find? (h : r.Shows env) (hv : env.find? name = some v) :
    env.findSlot? v.slot = some v :=
  h.wellFormed.findSlot?_eq_some_iff.2 ⟨(find?_mem hv).1, rfl⟩

/-- **A registry that shows an environment has its indexes in step.** -/
theorem inStep (h : r.Shows env) : r.InStep where
  names_nodup := by
    have hnames := h.wellFormed.names_nodup
    rw [keys, List.map_map] at hnames
    rw [h.names_eq]
    exact hnames
  slots_nodup := by
    have hslots := h.wellFormed.slots_nodup.map Int.ofNat_injective
    rw [keys, List.map_map, List.map_map] at hslots
    rw [h.bySlot_eq, List.map_map]
    exact hslots
  same_places place := by
    constructor
    · rintro ⟨name, hname⟩
      obtain ⟨v, hv, hplace⟩ := h.lookup_byName_iff.1 hname
      exact ⟨v.slot, h.lookup_bySlot_iff.2 ⟨v, h.findSlot?_of_find? hv, hplace⟩⟩
    · rintro ⟨slot, hslot⟩
      obtain ⟨v, hv, hplace⟩ := h.lookup_bySlot_iff.1 hslot
      have hname := h.wellFormed.find?_eq_some_iff.2 ⟨(findSlot?_mem hv).1, rfl⟩
      exact ⟨v.name, h.lookup_byName_iff.2 ⟨v, hname, hplace⟩⟩
  name_eq name place hname := by
    obtain ⟨v, hv, rfl⟩ := h.lookup_byName_iff.1 hname
    exact ⟨v, h.record_eq v (find?_mem hv).1, (find?_mem hv).2⟩
  slot_eq slot place hslot := by
    obtain ⟨v, hv, rfl⟩ := h.lookup_bySlot_iff.1 hslot
    exact ⟨v, h.record_eq v (findSlot?_mem hv).1, (findSlot?_mem hv).2⟩
  slotOf_eq name v hv := by
    rw [h.find?_eq] at hv
    refine ⟨?_, ?_, ?_⟩
    · simp only [Registry.slotOf, h.lookup_of_find? hv, Result.andThen,
        h.recordAt (find?_mem hv).1]
    · rw [h.lookup_bySlot, h.findSlot?_of_find? hv, h.lookup_byName, hv]
    · rw [h.findSlot?_eq, h.findSlot?_of_find? hv]
  slot_inj name name' v v' hv hv' hslot := by
    rw [h.find?_eq] at hv hv'
    obtain ⟨hmem, rfl⟩ := find?_mem hv
    obtain ⟨hmem', rfl⟩ := find?_mem hv'
    rw [h.wellFormed.eq_of_slot hmem hmem' hslot]
  slot_lt slot place hslot := by
    obtain ⟨v, hv, rfl⟩ := h.lookup_bySlot_iff.1 hslot
    obtain ⟨hmem, rfl⟩ := findSlot?_mem hv
    rw [h.nextSlot_eq]
    exact ⟨Int.natCast_nonneg _, Int.ofNat_lt.2 (h.wellFormed.slot_lt _ (key_mem_keys hmem))⟩

/-- A name has a slot if the slot leads to a variable of the name. -/
theorem owns_iff (h : r.Shows env) {slot : Nat} :
    env.Owns name slot ↔ ∃ v, r.findSlot? slot = some v ∧ v.name = name := by
  rw [h.findSlot?_eq]
  constructor
  · intro hown
    obtain ⟨v, _, hv, hname, _⟩ := hown.exists_variable h.wellFormed
    exact ⟨v, hv, hname⟩
  · rintro ⟨v, hv, rfl⟩
    exact owns_of_findSlot? hv

end Shows

/-- **What holds of a registry after any events**, whether they succeeded or failed, and after any
that follow.  The two indexes are in step, the registry shows what the environment is then, and no
call on it ends because an index leads nowhere.  The next slot is the number of the variables that
were ever made, each of which was there at some time under the slot that tells its place among them.
The next slot never goes down, and a slot that was given out and is not in its index is not there
later. -/
theorem inStep_afterAll (events later : List Event) :
    (Registry.empty.afterAll events).InStep ∧
    (Registry.empty.afterAll events).toEnvironment = Environment.empty.afterAll events ∧
    (∀ call : Call, Tracks ((Registry.empty.afterAll events).call call)
      (InPlace.settle (Environment.empty.afterAll events)
        (call.outcome (Environment.empty.afterAll events)))) ∧
    (Registry.empty.afterAll events).nextSlot = (Environment.empty.madeAll events).length ∧
    (Registry.empty.afterAll events).records.length = (Environment.empty.madeAll events).length ∧
    (∀ name (slot : Nat), (Environment.empty.madeAll events)[slot]? = some name ↔
      ∃ before rest, events = before ++ rest ∧
        ∃ v, (Registry.empty.afterAll before).findSlot? slot = some v ∧ v.name = name) ∧
    (Registry.empty.afterAll events).nextSlot ≤
      ((Registry.empty.afterAll events).afterAll later).nextSlot ∧
    ∀ slot : Nat, slot < (Registry.empty.afterAll events).nextSlot →
      (Registry.empty.afterAll events).bySlot.lookup (slot : Int) = none →
      ((Registry.empty.afterAll events).afterAll later).bySlot.lookup (slot : Int) = none := by
  have hshows := shows_empty.afterAll events
  have hlater := hshows.afterAll later
  have hfollows := follows_afterAll hshows.wellFormed later
  have hmade := nextSlot_afterAll_empty events
  refine ⟨hshows.inStep, hshows.toEnvironment_eq, hshows.tracks_call,
    hshows.nextSlot_eq.trans hmade, hshows.length_records.trans hmade, fun name slot ↦ ?_, ?_,
    fun slot hslot hnone ↦ ?_⟩
  · simp only [getElem?_madeAll, (shows_empty.afterAll _).owns_iff]
  · rw [hshows.nextSlot_eq, hlater.nextSlot_eq]
    exact hfollows.nextSlot_le
  · rw [hshows.nextSlot_eq] at hslot
    rw [hshows.lookup_bySlot, Option.map_eq_none_iff] at hnone
    rw [hlater.lookup_bySlot, Option.map_eq_none_iff]
    refine findSlot?_eq_none_of_forall fun name hown ↦ ?_
    have hbefore := ((hfollows.owns_iff name slot hslot).1 hown).1
    obtain ⟨v, _, hfind, _⟩ := hbefore.exists_variable hshows.wellFormed
    rw [hnone] at hfind
    cases hfind

end Registry

end Reckoner
