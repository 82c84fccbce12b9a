import Reckoner.Proofs.Environment.History
import Mathlib.Data.List.Induction
import Mathlib.Data.String.Basic

/-!
# Which variables were ever made

Slots are numbered as variables are made, so that the next slot counts the variables that ever were.
`Environment.made` tells, without a look at slots, the names for which an event makes variables, and
`Environment.madeAll` collects them over a history.  A variable can be gone when a history ends, so
the variables that are there do not show how many there were; what shows it is all the states of the
history together (`getElem?_madeAll`).

* `Environment.Makes` says of a change that it makes variables of certain names, and that the slots
  it gives out are owned by them in order.  It is the counterpart of `Environment.Follows`, which is
  about the slots that were given out before.
* `Environment.makes_after` is the step.  Over a whole history the next slot counts what was made
  (`nextSlot_afterAll`), and the variables that were made are those that were there at some time
  (`getElem?_madeAll`).
-/

set_option autoImplicit false

namespace Reckoner

namespace Environment

/-! ## Changes that make variables -/

/-- A change makes variables of the given names, which own the next slots in order. -/
structure Makes (names : List String) (env env' : Environment) : Prop where
  /-- A slot is given out for each name. -/
  nextSlot_eq : env'.nextSlot = env.nextSlot + names.length
  /-- Each of the new slots is owned by its name. -/
  owns_iff : ∀ name i, env'.Owns name (env.nextSlot + i) ↔ names[i]? = some name

variable {env env' env'' : Environment}

namespace Makes

/-- A change that adds no key makes no variable. -/
theorem of_subset (h : env.WellFormed) (hkeys : env'.keys ⊆ env.keys)
    (hnext : env'.nextSlot = env.nextSlot) : Makes [] env env' := by
  refine ⟨hnext, fun name i ↦ ⟨fun hown ↦ ?_, fun hname ↦ nomatch hname⟩⟩
  have hlt : env.nextSlot + i < env.nextSlot := h.slot_lt _ (hkeys hown)
  omega

theorem of_keys_eq (h : env.WellFormed) (hkeys : env'.keys = env.keys)
    (hnext : env'.nextSlot = env.nextSlot) : Makes [] env env' :=
  of_subset h (hkeys ▸ List.Subset.refl _) hnext

theorem refl (h : env.WellFormed) : Makes [] env env := of_keys_eq h rfl rfl

/-- The variables that two changes make are those of the first and then those of the second, if the
second retires none of the first. -/
theorem trans {names names' : List String} {retired : String → Prop} (h : Makes names env env')
    (hfollows : Follows retired env' env'') (hkeep : ∀ name ∈ names, ¬ retired name)
    (h' : Makes names' env' env'') : Makes (names ++ names') env env'' := by
  refine ⟨?_, fun name i ↦ ?_⟩
  · rw [h'.nextSlot_eq, h.nextSlot_eq, List.length_append, Nat.add_assoc]
  · by_cases hi : i < names.length
    · have hslot : env.nextSlot + i < env'.nextSlot := by rw [h.nextSlot_eq]; omega
      rw [hfollows.owns_iff name _ hslot, h.owns_iff, List.getElem?_append_left hi]
      exact and_iff_left_of_imp fun hname ↦ hkeep name (List.mem_of_getElem? hname)
    · have hslot : env.nextSlot + i = env'.nextSlot + (i - names.length) := by
        rw [h.nextSlot_eq]; omega
      rw [hslot, h'.owns_iff, List.getElem?_append_right (Nat.not_lt.1 hi)]

end Makes

theorem makes_create (h : env.WellFormed) (name : String) (value : Value) :
    Makes [name] env (env.create name value) := by
  refine ⟨rfl, fun other i ↦ ?_⟩
  have hold : (other, env.nextSlot + i) ∉ env.keys := fun hmem ↦ by
    have hlt : env.nextSlot + i < env.nextSlot := h.slot_lt _ hmem
    omega
  rw [Owns, keys_create, List.mem_append, or_iff_right hold, List.mem_singleton, Prod.mk.injEq]
  cases i with
  | zero => simp [eq_comm]
  | succ i => simp

theorem makes_erase (h : env.WellFormed) (name : String) : Makes [] env (env.erase name) := by
  refine .of_subset h ?_ rfl
  rw [keys_erase]
  exact List.filter_subset_self _

/-- The name for which a value that is given to it makes a variable. -/
def madeByPut (env : Environment) (name : String) : List String :=
  if env.has name then [] else [name]

theorem makes_put (h : env.WellFormed) (name : String) (value : Value) :
    Makes (env.madeByPut name) env (env.put name value) := by
  rw [madeByPut]
  split
  · next hhas =>
    obtain ⟨hkeys, hnext⟩ := keys_put hhas value
    exact .of_keys_eq h hkeys hnext
  · next hhas =>
    rw [put, if_neg hhas]
    exact makes_create h name value

/-- The names for which several values make variables. -/
def madeByPutAll (env : Environment) : List (String × Value) → List String
  | [] => []
  | (name, value) :: values => env.madeByPut name ++ (env.put name value).madeByPutAll values

theorem makes_putAll (h : env.WellFormed) (values : List (String × Value)) :
    Makes (env.madeByPutAll values) env (env.putAll values) := by
  induction values generalizing env with
  | nil => exact .refl h
  | cons entry values ih =>
    have hwf := (follows_put h entry.1 entry.2).wellFormed
    exact (makes_put h entry.1 entry.2).trans (follows_putAll hwf values) (fun _ _ ↦ id) (ih hwf)

theorem makes_copy (h : env.WellFormed) {newName oldName : String} (hne : newName ≠ oldName)
    (hcopy : env.copy newName oldName = .ok env') : Makes [newName] env env' := by
  obtain ⟨v, _, rfl⟩ := (copy_eq_ok_iff hne).1 hcopy
  have hwf := h.erase newName
  exact (makes_erase h newName).trans (follows_create hwf (has_erase env newName) v.value)
    (fun _ _ ↦ id) (makes_create hwf newName v.value)

/-- Copies to different names make a variable each. -/
theorem makes_copyAll (h : env.WellFormed) {target : String → String} {sources : List String}
    (hsources : ∀ name ∈ sources, env.has name = true ∧ target name ≠ name)
    (hnodup : (sources.map target).Nodup)
    (hall : sources.foldlM (fun env name ↦ env.copy (target name) name) env = .ok env') :
    Makes (sources.map target) env env' := by
  induction sources generalizing env with
  | nil =>
    cases hall
    exact .refl h
  | cons source sources ih =>
    obtain ⟨⟨hhas, hne⟩, hsources⟩ := List.forall_mem_cons.1 hsources
    obtain ⟨hfirst, hnodup⟩ := List.nodup_cons.1 hnodup
    obtain ⟨v, hv⟩ := Option.isSome_iff_exists.1 hhas
    have hcopy := (copy_eq_ok_iff hne).2 ⟨v, hv, rfl⟩
    have hwf := (follows_copy h hne hcopy).wellFormed
    have hrest : ∀ name ∈ sources, _ ∧ target name ≠ name := fun name hname ↦
      ⟨has_of_copy hne hcopy (hsources name hname).1, (hsources name hname).2⟩
    rw [List.foldlM_cons, hcopy] at hall
    -- The copies that follow go to other names, so that they leave the first one where it is.
    obtain ⟨last, hlast, hfollows⟩ := follows_copyAll hwf hrest
    obtain rfl : last = env' := Except.ok.inj (hlast.symm.trans hall)
    refine (makes_copy h hne hcopy).trans hfollows (fun name hname ↦ ?_) (ih hwf hrest hnodup hall)
    obtain rfl := List.mem_singleton.1 hname
    exact fun ⟨other, hother, heq⟩ ↦ hfirst (List.mem_map.2 ⟨other, hother, heq⟩)

/-! ### Copies of a set -/

theorem nodup_names (h : env.WellFormed) : env.names.Nodup := by
  have hperm : env.names.Perm (env.variables.map (·.name)) := (List.mergeSort_perm _ _).map _
  have hnames := h.names_nodup
  rw [keys, List.map_map] at hnames
  exact hperm.nodup_iff.2 hnames

/-- What is sorted by names is in the order of the names. -/
theorem pairwise_mergeSort_le {α : Type} (key : α → String) (as : List α) :
    (as.mergeSort fun a b ↦ decide (key a ≤ key b)).Pairwise fun a b ↦ key a ≤ key b := by
  have hsorted : (as.mergeSort fun a b ↦ decide (key a ≤ key b)).Pairwise fun a b ↦
      decide (key a ≤ key b) = true :=
    List.pairwise_mergeSort
      (fun _ _ _ hab hbc ↦ decide_eq_true ((of_decide_eq_true hab).trans (of_decide_eq_true hbc)))
      (fun a b ↦ by simpa using le_total (key a) (key b)) _
  exact hsorted.imp of_decide_eq_true

theorem pairwise_names (h : env.WellFormed) : env.names.Pairwise (· < ·) := by
  have hle : env.names.Pairwise (· ≤ ·) :=
    List.pairwise_map.2 (pairwise_mergeSort_le Variable.name env.variables)
  have hne : env.names.Pairwise (· ≠ ·) := nodup_names h
  exact (hle.and hne).imp fun hvw ↦ lt_of_le_of_ne hvw.1 hvw.2

/-- Different names with one head are still different with another. -/
theorem replaceHead_inj {oldHead newHead name other : String}
    (hname : startsWith oldHead name = true) (hother : startsWith oldHead other = true)
    (heq : replaceHead oldHead newHead name = replaceHead oldHead newHead other) :
    name = other := by
  obtain ⟨rest, hrest⟩ := List.isPrefixOf_iff_prefix.1 hname
  obtain ⟨rest', hrest'⟩ := List.isPrefixOf_iff_prefix.1 hother
  have hlist := congrArg String.toList heq
  simp only [replaceHead, String.toList_append, String.toList_ofList, ← hrest, ← hrest',
    ← String.length_toList, List.drop_left] at hlist
  rw [← String.toList_inj, ← hrest, ← hrest', List.append_cancel_left hlist]

theorem nodup_copyTargets (h : env.WellFormed) (oldHead newHead : String) :
    (env.copyTargets oldHead newHead).Nodup := by
  refine (List.nodup_map_iff_inj_on ((nodup_names h).filter _)).2 fun name hname other hother ↦ ?_
  exact replaceHead_inj (List.mem_filter.1 hname).2 (List.mem_filter.1 hother).2

theorem makes_copySet (h : env.WellFormed) {oldHead newHead : String} (hne : oldHead ≠ newHead)
    {result : List String × Environment} (hcopy : env.copySet oldHead newHead = .ok result) :
    Makes (env.copyTargets oldHead newHead) env result.2 := by
  have hsome : env.namesWithHead oldHead ≠ [] := by
    intro hnone
    rw [copySet, if_neg hne, hnone] at hcopy
    cases hcopy
  obtain ⟨env', hall, hok, _⟩ := exists_copyAll h hne hsome
  obtain rfl := Except.ok.inj (hok.symm.trans hcopy)
  exact makes_copyAll h (env.forall_mem_namesWithHead hne) (nodup_copyTargets h oldHead newHead)
    hall

/-! ## Events -/

/-- The names for which an event makes variables, in the order in which it makes them. -/
def made (env : Environment) : Event → List String
  | .define name value => if (Value.ofDatum value).isOk then env.madeByPut name else []
  | .set name value => if (Value.ofDatum value).isOk then env.madeByPut name else []
  | .copy newName oldName => if newName ≠ oldName ∧ env.has oldName then [newName] else []
  | .copySet oldHead newHead => if oldHead = newHead then [] else env.copyTargets oldHead newHead
  | .update data => ((readSnapshot data).map env.madeByPutAll).toOption.getD []
  | .restore text =>
    ((readDocument text).bind fun d ↦ (readSnapshot d).map env.madeByPutAll).toOption.getD []
  | .remove _ | .get _ | .storeSlot _ _ | .resetActive | .run _ _ => []

/-- The names for which several events make variables, in the order in which they make them. -/
def madeAll (env : Environment) : List Event → List String
  | [] => []
  | event :: events => env.made event ++ (env.after event).madeAll events

theorem madeAll_append (env : Environment) (first second : List Event) :
    env.madeAll (first ++ second) = env.madeAll first ++ (env.afterAll first).madeAll second := by
  induction first generalizing env with
  | nil => rfl
  | cons event first ih => rw [List.cons_append, madeAll, ih, madeAll, List.append_assoc,
      afterAll_cons]

theorem madeAll_concat (env : Environment) (events : List Event) (event : Event) :
    env.madeAll (events ++ [event]) = env.madeAll events ++ (env.afterAll events).made event := by
  rw [madeAll_append, madeAll, madeAll, List.append_nil]

theorem makes_after_copySet (h : env.WellFormed) (oldHead newHead : String) :
    Makes (env.made (.copySet oldHead newHead)) env (env.after (.copySet oldHead newHead)) := by
  by_cases hne : oldHead = newHead
  · simp only [made, after, copySet, if_pos hne]
    exact .refl h
  · simp only [made, after, if_neg hne]
    by_cases hsome : env.namesWithHead oldHead = []
    · simp only [copySet, if_neg hne, hsome, copyTargets]
      exact .refl h
    · obtain ⟨result, hcopy, _⟩ := exists_copySet h hne hsome
      rw [hcopy]
      exact makes_copySet h hne hcopy

/-- **The step**: an event gives out a slot for each variable that it makes, and for nothing
else. -/
theorem makes_after (h : env.WellFormed) (event : Event) :
    Makes (env.made event) env (env.after event) := by
  cases event with
  | define name value =>
    simp only [made, after, define, madeByPut]
    by_cases hhas : env.has name = true
    · simp only [if_pos hhas, ite_self]
      exact .refl h
    · simp only [if_neg hhas]
      cases Value.ofDatum value with
      | ok value => exact makes_create h name value
      | error e => exact .refl h
  | set name value =>
    simp only [made, after, set]
    cases Value.ofDatum value with
    | ok value => exact makes_put h name value
    | error e => exact .refl h
  | remove name =>
    simp only [made, after, remove]
    cases env.lookup name with
    | ok v => exact makes_erase h name
    | error e => exact .refl h
  | get name =>
    simp only [made, after, get]
    cases env.lookup name with
    | ok v => exact .of_keys_eq h (keys_activate env v.slot) rfl
    | error e => exact .refl h
  | copy newName oldName =>
    by_cases hcopies : newName ≠ oldName ∧ env.has oldName = true
    · obtain ⟨v, hv⟩ := Option.isSome_iff_exists.1 hcopies.2
      have hcopy := (copy_eq_ok_iff hcopies.1).2 ⟨v, hv, rfl⟩
      simp only [made, after, if_pos hcopies, hcopy]
      exact makes_copy h hcopies.1 hcopy
    · simp only [made, after, if_neg hcopies]
      have hsame : (env.copy newName oldName).toOption.getD env = env := by
        by_cases hne : newName = oldName
        · simp only [copy, hne]
          cases env.lookup oldName <;> rfl
        · have hnone : env.find? oldName = none := by simpa [has, hne] using hcopies
          simp only [copy, lookup, hnone]
          rfl
      rw [hsame]
      exact .refl h
  | copySet oldHead newHead => exact makes_after_copySet h oldHead newHead
  | storeSlot slot value =>
    simp only [made, after]
    cases hstore : env.storeSlot slot value with
    | some next => exact .of_keys_eq h (keys_storeSlot hstore).1 (keys_storeSlot hstore).2
    | none => exact .refl h
  | resetActive => exact .of_keys_eq h (keys_resetActive env) rfl
  | update data =>
    simp only [made, after, update]
    cases readSnapshot data with
    | ok values => exact makes_putAll h values
    | error e => exact .refl h
  | restore text =>
    simp only [made, after, restore, update]
    cases readDocument text with
    | error e => exact .refl h
    | ok data =>
      cases hread : readSnapshot data with
      | ok values =>
        simp only [Except.bind, bind, hread]
        exact makes_putAll h values
      | error e =>
        simp only [Except.bind, bind, hread]
        exact .refl h
  | run functions program =>
    obtain ⟨hkeys, hnext⟩ := program.keys_run functions env
    exact .of_keys_eq h hkeys hnext

/-! ## Histories -/

/-- **The next slot counts the variables that were made.** -/
theorem nextSlot_afterAll (h : env.WellFormed) (events : List Event) :
    (env.afterAll events).nextSlot = env.nextSlot + (env.madeAll events).length := by
  induction events generalizing env with
  | nil => rfl
  | cons event events ih =>
    rw [afterAll_cons, ih (follows_after h event).wellFormed, (makes_after h event).nextSlot_eq,
      madeAll, List.length_append, Nat.add_assoc]

theorem nextSlot_afterAll_empty (events : List Event) :
    (empty.afterAll events).nextSlot = (empty.madeAll events).length := by
  rw [nextSlot_afterAll wellFormed_empty, empty, Nat.zero_add]

/-- A variable has the place among those that were made which its slot tells. -/
theorem Owns.getElem?_madeAll {events : List Event} {name : String} {slot : Nat}
    (hown : (empty.afterAll events).Owns name slot) :
    (empty.madeAll events)[slot]? = some name := by
  induction events using List.reverseRecOn with
  | nil => cases hown
  | append_singleton events event ih =>
    have hwf := (follows_afterAll wellFormed_empty events).wellFormed
    have hlength := nextSlot_afterAll_empty events
    rw [afterAll_append, afterAll_cons, afterAll_nil] at hown
    rw [madeAll_concat]
    by_cases hslot : slot < (empty.afterAll events).nextSlot
    · have hbefore := ((follows_after hwf event).owns_iff name slot hslot).1 hown
      rw [List.getElem?_append_left (hlength ▸ hslot)]
      exact ih hbefore.1
    · obtain ⟨i, rfl⟩ := Nat.exists_eq_add_of_le (Nat.not_lt.1 hslot)
      rw [hlength, List.getElem?_append_right (Nat.le_add_right ..), Nat.add_sub_cancel_left]
      exact ((makes_after hwf event).owns_iff name i).1 hown

/-- **The variables that were made are those that were there at some time**, each under its name and
with the slot that tells its place. -/
theorem getElem?_madeAll {events : List Event} {name : String} {slot : Nat} :
    (empty.madeAll events)[slot]? = some name ↔
      ∃ before rest, events = before ++ rest ∧ (empty.afterAll before).Owns name slot := by
  refine ⟨fun hname ↦ ?_, ?_⟩
  · induction events using List.reverseRecOn with
    | nil => cases hname
    | append_singleton events event ih =>
      have hwf := (follows_afterAll wellFormed_empty events).wellFormed
      have hlength := nextSlot_afterAll_empty events
      rw [madeAll_concat] at hname
      by_cases hslot : slot < (empty.madeAll events).length
      · rw [List.getElem?_append_left hslot] at hname
        obtain ⟨before, rest, rfl, hown⟩ := ih hname
        exact ⟨before, rest ++ [event], List.append_assoc .., hown⟩
      · rw [List.getElem?_append_right (Nat.not_lt.1 hslot)] at hname
        have hown := ((makes_after hwf event).owns_iff name _).2 hname
        rw [hlength, Nat.add_sub_cancel' (Nat.not_lt.1 hslot)] at hown
        refine ⟨events ++ [event], [], (List.append_nil _).symm, ?_⟩
        rwa [afterAll_append]
  · rintro ⟨before, rest, rfl, hown⟩
    have hplace := hown.getElem?_madeAll
    rw [madeAll_append, List.getElem?_append_left (List.getElem?_eq_some_iff.1 hplace).1]
    exact hplace

end Environment

end Reckoner
