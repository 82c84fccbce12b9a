import Reckoner.Proofs.Environment.Access
import Reckoner.Proofs.Environment.History
import Reckoner.Proofs.Environment.Intake
import Reckoner.Session

/-!
# Calls that change variables as they go

The operations on an environment answer either a failure or a new environment, so that nothing is
left of one that fails.  A calculator that has one set of variables does not work like that: it
changes the variables as it goes, and what it has changed before it fails stays changed.

An `InPlace` computation works in this way, and each operation is written once more as such a
computation, step by step: `InPlace.remove` takes a name out before it knows whether there was one,
`InPlace.copySet` makes one copy after the other, and `InPlace.update` writes one entry after the
other, each of which can fail.  A `Call` is one of them, and `Call.perform_eq_settle` says that it
comes to the same as the operation on environments.  Two facts carry this.

* Whatever can fail in an entry of a snapshot fails before the first entry is written, and a value
  that was read is always taken in (`InPlace.perform_assign_value`).
* A variable that is still to be copied is there when its turn comes (`InPlace.perform_copyAll`),
  whatever was taken out and made again before.

A call is a command of a session as well (`Call.step_command`).  `Environment.unchanged_of_error` is
the conclusion.
-/

set_option autoImplicit false

namespace Reckoner

open Environment

/-- A computation that changes the variables as it goes.  What it has changed stays changed if it
fails later. -/
abbrev InPlace := ExceptT Failure (StateM Environment)

namespace InPlace

variable {α β : Type} {env env' : Environment} {name : String}

/-- What a computation comes to, and what it leaves behind. -/
def perform (c : InPlace α) (env : Environment) : Except Failure α × Environment :=
  StateT.run (ExceptT.run c) env

@[simp] theorem perform_pure (a : α) : perform (pure a) env = (.ok a, env) := rfl

@[simp] theorem perform_throw (e : Failure) :
    perform (throw e : InPlace α) env = (.error e, env) := rfl

@[simp] theorem perform_get : perform get env = (.ok env, env) := rfl

@[simp] theorem perform_modify (f : Environment → Environment) :
    perform (modify f) env = (.ok (), f env) := rfl

@[simp] theorem perform_bind (c : InPlace α) (f : α → InPlace β) :
    perform (c >>= f) env =
      match perform c env with
      | (.ok a, env') => perform (f a) env'
      | (.error e, env') => (.error e, env') := by
  have hbind : perform (c >>= f) env =
      StateT.run (ExceptT.bindCont f (perform c env).1) (perform c env).2 := rfl
  rw [hbind]
  rcases perform c env with ⟨_ | _, _⟩ <;> rfl

@[simp] theorem perform_map (f : α → β) (c : InPlace α) :
    perform (f <$> c) env = ((perform c env).1.map f, (perform c env).2) := by
  rw [map_eq_pure_bind, perform_bind]
  rcases perform c env with ⟨_ | _, _⟩ <;> rfl

/-- What an operation on environments comes to, which leaves nothing behind if it fails. -/
def settle (env : Environment) (outcome : Except Failure (α × Environment)) :
    Except Failure α × Environment :=
  match outcome with
  | .ok (a, env') => (.ok a, env')
  | .error e => (.error e, env)

theorem settle_error {outcome : Except Failure (α × Environment)} {e : Failure}
    (h : (settle env outcome).1 = .error e) : (settle env outcome).2 = env := by
  cases outcome with
  | ok result => cases h
  | error e => rfl

theorem perform_map_settle {c : InPlace α} {outcome : Except Failure (α × Environment)}
    (f : α → β) (h : c.perform env = settle env outcome) :
    (f <$> c).perform env = settle env (outcome.map (Prod.map f id)) := by
  rw [perform_map, h]
  cases outcome <;> rfl

/-- An environment with what is answered about it. -/
def answered (answer : Environment → α) (env : Environment) : α × Environment := (answer env, env)

/-! ## The operations, step by step -/

/-- The variable of a name. -/
def lookup (name : String) : InPlace Variable := do
  let env ← get
  match env.find? name with
  | some v => return v
  | none => throw (.variable (env.undefined name))

/-- Makes a variable with the next slot. -/
def create (name : String) (value : Value) : InPlace Variable := do
  let env ← get
  modify (·.create name value)
  return ⟨name, value, env.nextSlot, false⟩

/-- Makes a variable that is not there. -/
def define (name : String) (d : Datum) : InPlace Variable := do
  let env ← get
  if env.has name then
    throw (.variable (.alreadyDefined name))
  else
    match Value.ofDatum d with
    | .ok value => create name value
    | .error e => throw (.intake e)

/-- Writes a variable, or makes it. -/
def assign (name : String) (d : Datum) : InPlace Variable := do
  match Value.ofDatum d with
  | .error e => throw (.intake e)
  | .ok value =>
    let env ← get
    match env.find? name with
    | none => create name value
    | some v =>
      modify (·.updateWhere (·.name == name) fun v ↦ { v with value })
      return { v with value }

/-- Takes a name out, and then looks whether there was a variable. -/
def remove (name : String) : InPlace Unit := do
  let env ← get
  modify (·.erase name)
  match env.find? name with
  | some _ => return
  | none =>
    let env ← get
    throw (.variable (env.undefined name))

/-- Marks a variable and answers its value. -/
def read (name : String) : InPlace Value := do
  let v ← lookup name
  modify (·.activate v.slot)
  return v.value

/-- The slot of a variable. -/
def slotOf (name : String) : InPlace Nat := do
  let v ← lookup name
  return v.slot

/-- Copies a variable, after it has taken out what has the new name. -/
def copy (newName oldName : String) : InPlace Variable := do
  let source ← lookup oldName
  if newName = oldName then
    return source
  else
    let env ← get
    if env.has newName then
      remove newName
    create newName source.value

/-- Copies the variables of several names, one after the other. -/
def copyAll (target : String → String) : List String → InPlace Unit
  | [] => pure ()
  | name :: names => do
    let _ ← copy (target name) name
    copyAll target names

/-- Copies the variables of all names with a head.  The names are fixed first. -/
def copySet (oldHead newHead : String) : InPlace (List String) := do
  if oldHead = newHead then
    return []
  else
    let env ← get
    match env.namesWithHead oldHead with
    | [] => throw (.variable (.noneWithHead oldHead))
    | sources =>
      copyAll (replaceHead oldHead newHead) sources
      return (sources.map (replaceHead oldHead newHead)).mergeSort fun a b ↦ decide (a ≤ b)

/-- Writes several variables, one after the other. -/
def assignAll : List (String × Value) → InPlace Unit
  | [] => pure ()
  | (name, value) :: values => do
    let _ ← assign name (.value value)
    assignAll values

/-- Reads all entries of a snapshot, and then writes them. -/
def update (data : Datum) : InPlace Unit :=
  match readSnapshot data with
  | .error e => throw (.snapshot e)
  | .ok values => assignAll values

/-- Reads the text of a document, and then the snapshot in it. -/
def restore (text : String) : InPlace Unit :=
  match readDocument text with
  | .error e => throw (.snapshot e)
  | .ok data => update data

/-! ## What they come to -/

theorem perform_lookup (name : String) (env : Environment) :
    (lookup name).perform env = ((env.lookup name).mapError .variable, env) := by
  simp only [lookup, Environment.lookup, perform_bind, perform_get]
  cases env.find? name <;> rfl

theorem perform_create (name : String) (value : Value) (env : Environment) :
    (create name value).perform env =
      (.ok ⟨name, value, env.nextSlot, false⟩, env.create name value) := rfl

theorem perform_define (name : String) (d : Datum) (env : Environment) :
    (.variable <$> define name d : InPlace Answer).perform env =
      settle env (((env.define name d).mapError .ofDefinition).map
        (answered (Session.variableOf name))) := by
  simp only [perform_map, define, perform_bind, perform_get, Environment.define]
  split
  · rfl
  · next hhas =>
    have hnone : env.find? name = none := by simpa [has] using hhas
    cases Value.ofDatum d with
    | error e => rfl
    | ok value => simp [perform_create, Except.mapError, Except.map, settle, answered,
        Session.variableOf, find?_create_self hnone, Answer.ofVariable?]

theorem perform_assign (name : String) (d : Datum) (env : Environment) :
    (.variable <$> assign name d : InPlace Answer).perform env =
      settle env (((env.set name d).mapError .intake).map
        (answered (Session.variableOf name))) := by
  simp only [perform_map, assign, Environment.set]
  cases Value.ofDatum d with
  | error e => rfl
  | ok value =>
    have hself := find?_put_self env name value
    simp only [perform_bind, perform_get, Except.map, Except.mapError, settle, answered,
      Session.variableOf, hself]
    cases hfind : env.find? name with
    | none =>
      have hput : env.put name value = env.create name value := by rw [put, has, hfind]; rfl
      rw [hput]
      rfl
    | some v =>
      have hput : env.put name value = env.updateWhere (·.name == name) fun v ↦ { v with value } :=
        by rw [put, has, hfind]; rfl
      rw [hput]
      rfl

/-- A name that is not there can be taken out. -/
theorem erase_of_find? (h : env.find? name = none) : env.erase name = env := by
  refine congrArg (Environment.mk · env.nextSlot) (List.filter_eq_self.2 fun v hv ↦ ?_)
  simpa [find?] using List.find?_eq_none.1 h v hv

theorem perform_remove (name : String) (env : Environment) :
    (remove name).perform env =
      settle env (((env.remove name).mapError .variable).map (answered fun _ ↦ ())) := by
  simp only [remove, perform_bind, perform_get, perform_modify, Environment.remove,
    Environment.lookup]
  cases hfind : env.find? name with
  | some v => rfl
  | none =>
    simp only [erase_of_find? hfind]
    rfl

theorem perform_read (name : String) (env : Environment) :
    (read name).perform env = settle env ((env.get name).mapError .variable) := by
  simp only [read, perform_bind, perform_lookup, Environment.get]
  cases env.lookup name <;> rfl

theorem perform_slotOf (name : String) (env : Environment) :
    (slotOf name).perform env =
      settle env (((env.slotOf name).mapError .variable).map (·, env)) := by
  simp only [slotOf, perform_bind, perform_lookup, Environment.slotOf]
  cases env.lookup name <;> rfl

/-- Where the new name is taken, it is taken out and made again. -/
theorem perform_copy_of_ne {newName oldName : String} {source : Variable}
    (hsource : env.find? oldName = some source) (hne : newName ≠ oldName) :
    (copy newName oldName).perform env =
      (.ok ⟨newName, source.value, env.nextSlot, false⟩,
        (env.erase newName).create newName source.value) := by
  simp only [copy, perform_bind, perform_lookup, Environment.lookup, hsource, Except.mapError,
    if_neg hne, perform_get]
  by_cases hhas : env.has newName = true
  · obtain ⟨v, hv⟩ := Option.isSome_iff_exists.1 hhas
    simp [hhas, perform_create, perform_remove, Environment.remove, Environment.lookup, hv,
      settle, answered, Except.map, Except.mapError]
  · have hnew : env.find? newName = none := by simpa [has] using hhas
    simp [hhas, perform_create, erase_of_find? hnew]

theorem perform_copy (newName oldName : String) (env : Environment) :
    (.variable <$> copy newName oldName : InPlace Answer).perform env =
      settle env (((env.copy newName oldName).mapError .variable).map
        (answered (Session.variableOf newName))) := by
  rw [perform_map]
  cases hfind : env.find? oldName with
  | none =>
    rw [copy, perform_bind, perform_lookup, Environment.copy, Environment.lookup, hfind]
    rfl
  | some source =>
    by_cases hname : newName = oldName
    · subst hname
      simp [copy, Environment.copy, perform_lookup, Environment.lookup, hfind, settle, answered,
        Except.map, Except.mapError, Session.variableOf, Answer.ofVariable?]
    · have hgone : (env.erase newName).find? newName = none := by
        simpa [has] using has_erase env newName
      simp [perform_copy_of_ne hfind hname, (copy_eq_ok_iff hname).2 ⟨source, hfind, rfl⟩, settle,
        answered, Except.map, Except.mapError, Session.variableOf, Answer.ofVariable?,
        find?_create_self hgone]

/-! ### Several variables -/

/-- Copies of variables that are there are made one after the other, each from a variable that is
still there. -/
theorem perform_copyAll (h : env.WellFormed) {target : String → String} {sources : List String}
    (hsources : ∀ name ∈ sources, env.has name = true ∧ target name ≠ name)
    (hall : sources.foldlM (fun env name ↦ env.copy (target name) name) env = .ok env') :
    (copyAll target sources).perform env = (.ok (), env') := by
  induction sources generalizing env with
  | nil =>
    cases hall
    rfl
  | cons source sources ih =>
    obtain ⟨⟨hhas, hne⟩, hsources⟩ := List.forall_mem_cons.1 hsources
    obtain ⟨v, hv⟩ := Option.isSome_iff_exists.1 hhas
    have hcopy := (copy_eq_ok_iff hne).2 ⟨v, hv, rfl⟩
    have hrest := ih (follows_copy h hne hcopy).wellFormed
      (fun name hname ↦ ⟨has_of_copy hne hcopy (hsources name hname).1, (hsources name hname).2⟩)
      (by rwa [List.foldlM_cons, hcopy] at hall)
    rw [copyAll, perform_bind, perform_copy_of_ne hv hne]
    exact hrest

theorem perform_copySet (h : env.WellFormed) (oldHead newHead : String) :
    (copySet oldHead newHead).perform env =
      settle env ((env.copySet oldHead newHead).mapError .variable) := by
  by_cases hheads : oldHead = newHead
  · simp only [copySet, Environment.copySet, if_pos hheads]
    rfl
  · have hsources := env.forall_mem_namesWithHead hheads
    obtain ⟨env', hall, _⟩ := follows_copyAll h hsources
    have hcopies := perform_copyAll h hsources hall
    simp only [copySet, Environment.copySet, if_neg hheads, perform_bind, perform_get]
    cases hnames : env.namesWithHead oldHead with
    | nil => rfl
    | cons name names =>
      rw [hnames] at hall hcopies
      simp only [perform_bind, hcopies, hall]
      rfl

/-- A value is always taken in. -/
theorem perform_assign_value (name : String) (value : Value) (env : Environment) :
    ∃ v, (assign name (.value value)).perform env = (.ok v, env.put name value) := by
  have hassign := perform_assign name (.value value) env
  rw [perform_map] at hassign
  obtain ⟨houtcome, hleft⟩ := Prod.mk.inj hassign
  cases hperform : ((assign name (.value value)).perform env).1 with
  | ok v => exact ⟨v, Prod.ext hperform hleft⟩
  | error e =>
    rw [hperform] at houtcome
    cases houtcome

/-- Writing several values does not stop half-way. -/
theorem perform_assignAll (values : List (String × Value)) (env : Environment) :
    (assignAll values).perform env = (.ok (), env.putAll values) := by
  induction values generalizing env with
  | nil => rfl
  | cons entry values ih =>
    obtain ⟨v, hv⟩ := perform_assign_value entry.1 entry.2 env
    rw [assignAll, perform_bind, hv]
    exact ih _

theorem perform_update (data : Datum) (env : Environment) :
    (update data).perform env =
      settle env (((env.update data).mapError .snapshot).map (answered fun _ ↦ ())) := by
  rw [update, Environment.update]
  cases readSnapshot data with
  | error e => rfl
  | ok values => exact perform_assignAll values env

theorem perform_restore (text : String) (env : Environment) :
    (restore text).perform env =
      settle env (((env.restore text).mapError .snapshot).map (answered fun _ ↦ ())) := by
  rw [restore, Environment.restore]
  cases readDocument text with
  | error e => rfl
  | ok data => exact perform_update data env

end InPlace

/-! ## Calls -/

/-- A call that can fail. -/
inductive Call where
  | define (name : String) (value : Datum)
  | set (name : String) (value : Datum)
  | remove (name : String)
  | get (name : String)
  | slotOf (name : String)
  | copy (newName oldName : String)
  | copySet (oldHead newHead : String)
  | update (data : Datum)
  | restore (text : String)

namespace Call

/-- A call as a computation that changes the variables as it goes. -/
def inPlace : Call → InPlace Answer
  | define name value => .variable <$> InPlace.define name value
  | set name value => .variable <$> InPlace.assign name value
  | remove name => (fun _ ↦ .nothing) <$> InPlace.remove name
  | get name => (.datum <| .value ·) <$> InPlace.read name
  | slotOf name => .number <$> InPlace.slotOf name
  | copy newName oldName => .variable <$> InPlace.copy newName oldName
  | copySet oldHead newHead => .texts <$> InPlace.copySet oldHead newHead
  | update data => (fun _ ↦ .nothing) <$> InPlace.update data
  | restore text => (fun _ ↦ .nothing) <$> InPlace.restore text

/-- A call as a command of a session. -/
def command : Call → Command
  | define name value => .define name value
  | set name value => .set name value
  | remove name => .remove name
  | get name => .get name
  | slotOf name => .slotOf name
  | copy newName oldName => .copy newName oldName
  | copySet oldHead newHead => .copySet oldHead newHead
  | update data => .update data
  | restore text => .restore text

/-- What a call comes to by the operations on environments. -/
def outcome (env : Environment) : Call → Except Failure (Answer × Environment)
  | define name value => ((env.define name value).mapError .ofDefinition).map
      (InPlace.answered (Session.variableOf name))
  | set name value => ((env.set name value).mapError .intake).map
      (InPlace.answered (Session.variableOf name))
  | remove name => ((env.remove name).mapError .variable).map
      (InPlace.answered fun _ ↦ .nothing)
  | get name => ((env.get name).mapError .variable).map (Prod.map (.datum <| .value ·) id)
  | slotOf name => ((env.slotOf name).mapError .variable).map (.number ·, env)
  | copy newName oldName => ((env.copy newName oldName).mapError .variable).map
      (InPlace.answered (Session.variableOf newName))
  | copySet oldHead newHead => ((env.copySet oldHead newHead).mapError .variable).map
      (Prod.map .texts id)
  | update data => ((env.update data).mapError .snapshot).map
      (InPlace.answered fun _ ↦ .nothing)
  | restore text => ((env.restore text).mapError .snapshot).map
      (InPlace.answered fun _ ↦ .nothing)

/-- **A call comes to what the operation comes to**, and leaves nothing behind if that fails. -/
theorem perform_eq_settle {env : Environment} (h : env.WellFormed) (call : Call) :
    call.inPlace.perform env = InPlace.settle env (call.outcome env) := by
  cases call with
  | define name value => exact InPlace.perform_define name value env
  | set name value => exact InPlace.perform_assign name value env
  | remove name =>
    rw [inPlace, InPlace.perform_map_settle _ (InPlace.perform_remove name env), outcome]
    cases env.remove name <;> rfl
  | get name => exact InPlace.perform_map_settle _ (InPlace.perform_read name env)
  | slotOf name =>
    rw [inPlace, InPlace.perform_map_settle _ (InPlace.perform_slotOf name env), outcome]
    cases env.slotOf name <;> rfl
  | copy newName oldName => exact InPlace.perform_copy newName oldName env
  | copySet oldHead newHead =>
    exact InPlace.perform_map_settle _ (InPlace.perform_copySet h oldHead newHead)
  | update data =>
    rw [inPlace, InPlace.perform_map_settle _ (InPlace.perform_update data env), outcome]
    cases env.update data <;> rfl
  | restore text =>
    rw [inPlace, InPlace.perform_map_settle _ (InPlace.perform_restore text env), outcome]
    cases env.restore text <;> rfl

/-- **A call is the command of a session**, with the same answer and the same variables left. -/
theorem step_command (s : Session) (h : s.variables.WellFormed) (on : Nat) (call : Call) :
    s.step on call.command =
      ((call.inPlace.perform s.variables).1,
        { s with «variables» := (call.inPlace.perform s.variables).2 }) := by
  rw [perform_eq_settle h]
  cases call <;> rw [command, Session.step, outcome]
  case define name value => cases s.variables.define name value <;> rfl
  case set name value => cases s.variables.set name value <;> rfl
  case remove name => cases s.variables.remove name <;> rfl
  case get name => cases s.variables.get name <;> rfl
  case slotOf name => cases s.variables.slotOf name <;> rfl
  case copy newName oldName => cases s.variables.copy newName oldName <;> rfl
  case copySet oldHead newHead => cases s.variables.copySet oldHead newHead <;> rfl
  case update data => cases s.variables.update data <;> rfl
  case restore text => cases s.variables.restore text <;> rfl

end Call

/-! ## What a failure leaves -/

namespace Environment

variable {env : Environment}

/-- A snapshot with an entry that cannot be read is not read.  The failure is that of the first such
entry. -/
theorem exists_readEntries_eq_error {entries : List (Key × Datum)}
    (hbad : ∃ entry ∈ entries, ¬ (readEntry entry.1.plain entry.2).isOk) :
    ∃ before bad after e, entries = before ++ bad :: after ∧
      (∀ good ∈ before, (readEntry good.1.plain good.2).isOk) ∧
      readEntry bad.1.plain bad.2 = .error e ∧ readEntries entries = .error e := by
  induction entries with
  | nil =>
    obtain ⟨entry, hentry, _⟩ := hbad
    cases hentry
  | cons entry entries ih =>
    cases hread : readEntry entry.1.plain entry.2 with
    | error e =>
      refine ⟨[], entry, entries, e, rfl, by simp, hread, ?_⟩
      rw [readEntries_cons, hread]
    | ok value =>
      obtain ⟨before, bad, after, e, rfl, hbefore, he, hall⟩ := ih (by
        simpa [hread, Except.isOk, Except.toBool] using hbad)
      refine ⟨entry :: before, bad, after, e, rfl, ?_, he, ?_⟩
      · refine List.forall_mem_cons.2 ⟨?_, hbefore⟩
        rw [hread]
        rfl
      · rw [readEntries_cons, hread, hall]
        rfl

/-- **A call that fails leaves nothing behind.**  In any environment that can come up, a call that
changes the variables as it goes has changed nothing when it fails, whatever it fails with.  In
particular a snapshot with an entry that cannot be read, wherever it stands in the snapshot, fails
with the failure of the first such entry, and none of its entries is written; and copying a set that
is not empty comes to its end.  The calls are the commands of a session. -/
theorem unchanged_of_error (h : env.Reachable) :
    (∀ (call : Call) (e : Failure), (call.inPlace.perform env).1 = .error e →
      (call.inPlace.perform env).2 = env) ∧
    (∀ entries : List (Key × Datum),
      (∃ entry ∈ entries, ¬ (readEntry entry.1.plain entry.2).isOk) →
      ∃ before bad after e, entries = before ++ bad :: after ∧
        (∀ good ∈ before, (readEntry good.1.plain good.2).isOk) ∧
        readEntry bad.1.plain bad.2 = .error e ∧
        (Call.update (.mapping entries)).inPlace.perform env = (.error (.snapshot e), env)) ∧
    (∀ oldHead newHead : String, env.namesWithHead oldHead ≠ [] →
      ∃ names env', (Call.copySet oldHead newHead).inPlace.perform env =
        (.ok (.texts names), env')) ∧
    ∀ (s : Session) (on : Nat) (call : Call), s.variables = env →
      s.step on call.command =
        ((call.inPlace.perform env).1,
          { s with «variables» := (call.inPlace.perform env).2 }) := by
  have hwf := h.wellFormed
  refine ⟨fun call e hfail ↦ ?_, fun entries hbad ↦ ?_, fun oldHead newHead hsome ↦ ?_, ?_⟩
  · rw [Call.perform_eq_settle hwf] at hfail ⊢
    exact InPlace.settle_error hfail
  · obtain ⟨before, bad, after, e, hentries, hbefore, hread, hall⟩ :=
      exists_readEntries_eq_error hbad
    refine ⟨before, bad, after, e, hentries, hbefore, hread, ?_⟩
    have hsnapshot : readSnapshot (.mapping entries) = .error e := hall
    rw [Call.perform_eq_settle hwf, Call.outcome, Environment.update, hsnapshot]
    rfl
  · rw [Call.perform_eq_settle hwf, Call.outcome]
    by_cases hne : oldHead = newHead
    · rw [Environment.copySet, if_pos hne]
      exact ⟨_, _, rfl⟩
    · obtain ⟨⟨names, env'⟩, hcopy, _⟩ := exists_copySet hwf hne hsome
      rw [hcopy]
      exact ⟨names, env', rfl⟩
  · rintro s on call rfl
    exact Call.step_command s hwf on call

/-- The second of two entries cannot be read, and the first one is not written. -/
theorem unchanged_of_error_entry :
    let env := empty.afterAll [.define "a" (.text "old")]
    let call := Call.update (.mapping [
      (.text "a", .mapping [(.text "type", .text "text"), (.text "value", .text "new")]),
      (.text "b", .null)])
    (call.inPlace.perform env).1 = .error (.snapshot (.badEntry "b" .null)) ∧
      (call.inPlace.perform env).2 = env ∧
      env.find? "a" = some ⟨"a", .text "old", 0, false⟩ :=
  ⟨rfl, (unchanged_of_error ⟨_, rfl⟩).1 _ _ rfl, rfl⟩

end Environment

end Reckoner
