import Reckoner.Proofs.Document.RoundTrip
import Reckoner.Proofs.Environment.Access
import Reckoner.Proofs.Environment.Creation
import Reckoner.Proofs.Environment.Intake

/-!
# Snapshots are put back

A snapshot is taken of one environment and put back into another, which may have variables of its
own.  What comes out is both together: `Environment.Merged` says which variables there are then,
under which names and slots, with which values and marks.

* `merged_putAll` is about the values alone.  Each name comes once among them, so that it does not
  matter what is put before and after it (`exists_find?_putAll`), and the names that are new get
  their slots in the order of the list (`madeByPutAll_eq`).
* `readSnapshot_snapshot` says that a snapshot is read as the values that it was taken of, whatever
  their kind.
* `readDocument_save` says the same of its text, by way of `Document.parse?_render`.  The document
  of a snapshot has every key only once, because no two variables share a name.

`Environment.exists_merged` is the conclusion.
-/

set_option autoImplicit false

namespace Reckoner

/-- The floats in a value. -/
def Value.reals : Value → List Float
  | scalar x => [x]
  | vector a => a.components
  | text _ => []

namespace Environment

variable {env : Environment} {values : List (String × Value)} {name : String} {value : Value}

/-! ## Several values at once -/

theorem find?_putAll_of_not_mem (h : name ∉ values.map Prod.fst) :
    (env.putAll values).find? name = env.find? name := by
  induction values generalizing env with
  | nil => rfl
  | cons entry values ih =>
    rw [List.map_cons, List.mem_cons, not_or] at h
    exact (ih h.2).trans (find?_put_of_ne env entry.2 h.1)

/-- A name that comes once among several has its value afterwards.  Its variable keeps its slot and
its mark, if there was one. -/
theorem exists_find?_putAll (hnodup : (values.map Prod.fst).Nodup) (hmem : (name, value) ∈ values) :
    ∃ slot, (env.putAll values).find? name =
      some ((env.find? name).elim ⟨name, value, slot, false⟩ fun v ↦ { v with value }) := by
  induction values generalizing env with
  | nil => cases hmem
  | cons entry values ih =>
    obtain ⟨hfirst, hnodup⟩ := List.nodup_cons.1 hnodup
    rcases List.mem_cons.1 hmem with rfl | hmem
    · exact ⟨env.nextSlot, (find?_putAll_of_not_mem hfirst).trans (find?_put_self env name value)⟩
    · have hne : name ≠ entry.1 := fun heq ↦ hfirst (heq ▸ List.mem_map_of_mem hmem)
      obtain ⟨slot, hfind⟩ := @ih (env.put entry.1 entry.2) hnodup hmem
      rw [find?_put_of_ne env entry.2 hne] at hfind
      exact ⟨slot, hfind⟩

/-- The names for which several values make variables are those that are not there. -/
theorem madeByPutAll_eq (hnodup : (values.map Prod.fst).Nodup) :
    env.madeByPutAll values = (values.map Prod.fst).filter (!env.has ·) := by
  induction values generalizing env with
  | nil => rfl
  | cons entry values ih =>
    obtain ⟨hfirst, hnodup⟩ := List.nodup_cons.1 hnodup
    have hrest : (values.map Prod.fst).filter (!(env.put entry.1 entry.2).has ·) =
        (values.map Prod.fst).filter (!env.has ·) := by
      refine List.filter_congr fun other hother ↦ ?_
      have hne : other ≠ entry.1 := fun heq ↦ hfirst (heq ▸ hother)
      rw [has, has, find?_put_of_ne env entry.2 hne]
    rw [madeByPutAll, ih hnodup, hrest, madeByPut, List.map_cons, List.filter_cons]
    cases env.has entry.1 <;> rfl

/-! ## Values taken over -/

/-- An environment takes over the variables of another. -/
structure Merged (source target result : Environment) : Prop where
  /-- Names and slots are in order. -/
  wellFormed : result.WellFormed
  /-- The names are those of both. -/
  mem_names_iff : ∀ name, name ∈ result.names ↔ name ∈ target.names ∨ name ∈ source.names
  /-- Every variable of the source has its value. -/
  value_eq : ∀ name v, source.find? name = some v →
    ∃ w, result.find? name = some w ∧ w.value = v.value
  /-- A variable that is not in the source is as it was. -/
  find?_of_none : ∀ name, source.find? name = none → result.find? name = target.find? name
  /-- A variable that is in both keeps its slot and its mark. -/
  find?_of_both : ∀ name v w, source.find? name = some v → target.find? name = some w →
    result.find? name = some { w with value := v.value }
  /-- A variable that was not there is not active, and the slots of all of these follow each other in
  the order of the names. -/
  find?_of_new : ∀ i name v, (source.names.filter (!target.has ·))[i]? = some name →
    source.find? name = some v →
    result.find? name = some ⟨name, v.value, target.nextSlot + i, false⟩
  /-- No other slot is given out. -/
  nextSlot_eq : result.nextSlot =
    target.nextSlot + (source.names.filter (!target.has ·)).length

/-- The names and values of all variables, in the order of the names. -/
def bindings (env : Environment) : List (String × Value) :=
  env.sorted.map fun v ↦ (v.name, v.value)

theorem map_fst_bindings (env : Environment) : env.bindings.map Prod.fst = env.names := by
  rw [bindings, List.map_map]
  rfl

theorem mem_bindings {v : Variable} (h : env.find? name = some v) :
    (name, v.value) ∈ env.bindings := by
  obtain ⟨hmem, rfl⟩ := find?_mem h
  exact List.mem_map.2 ⟨v, (List.mergeSort_perm _ _).mem_iff.2 hmem, rfl⟩

/-- **Giving an environment the values of another** takes over its variables. -/
theorem merged_putAll {source target : Environment} (hsource : source.WellFormed)
    (htarget : target.WellFormed) : Merged source target (target.putAll source.bindings) := by
  have hnodup : (source.bindings.map Prod.fst).Nodup :=
    (map_fst_bindings source).symm ▸ nodup_names hsource
  have hmakes := makes_putAll htarget source.bindings
  rw [madeByPutAll_eq hnodup, map_fst_bindings] at hmakes
  have hwf := (follows_putAll htarget source.bindings).wellFormed
  have hfind : ∀ name v, source.find? name = some v → ∃ slot,
      (target.putAll source.bindings).find? name = some
        ((target.find? name).elim ⟨name, v.value, slot, false⟩ fun w ↦ { w with value := v.value }) :=
    fun name v hv ↦ exists_find?_putAll hnodup (mem_bindings hv)
  have hnone : ∀ name, source.find? name = none →
      (target.putAll source.bindings).find? name = target.find? name := by
    intro name hname
    refine find?_putAll_of_not_mem ?_
    rw [map_fst_bindings, mem_names_iff, has, hname]
    simp
  refine ⟨hwf, fun name ↦ ?_, fun name v hv ↦ ?_, hnone, fun name v w hv hw ↦ ?_,
    fun i name v hi hv ↦ ?_, hmakes.nextSlot_eq⟩
  · rw [mem_names_iff, mem_names_iff, mem_names_iff, has, has, has]
    cases hname : source.find? name with
    | none => simp [hnone name hname]
    | some v =>
      obtain ⟨slot, hv⟩ := hfind name v hname
      simp [hv]
  · obtain ⟨slot, hw⟩ := hfind name v hv
    refine ⟨_, hw, ?_⟩
    cases target.find? name <;> rfl
  · obtain ⟨slot, hresult⟩ := hfind name v hv
    rw [hresult, hw]
    rfl
  · have hnew : target.find? name = none := by
      simpa [has] using (List.mem_filter.1 (List.mem_of_getElem? hi)).2
    obtain ⟨slot, hresult⟩ := hfind name v hv
    rw [hnew] at hresult
    -- The slot is the one that the place of the name among the new ones tells.
    obtain ⟨w, hw, -, -, hslot⟩ := ((hmakes.owns_iff name i).2 hi).exists_variable hwf
    rw [hresult] at hw ⊢
    cases hw
    cases hslot
    rfl

/-! ## Snapshots -/

theorem readEntry_snapshotEntry (v : Variable) :
    readEntry v.name (snapshotEntry v).2.toDatum = .ok v.value := by
  obtain ⟨name, value, slot, active⟩ := v
  cases value <;> rfl

theorem readEntries_snapshotEntries (vs : List Variable) :
    readEntries (Document.fieldsToData (vs.map snapshotEntry)) =
      .ok (vs.map fun v ↦ (v.name, v.value)) := by
  induction vs with
  | nil => rfl
  | cons v vs ih =>
    have hentry := readEntry_snapshotEntry v
    simp only [List.map_cons, snapshotEntry, Document.fieldsToData, readEntries_cons,
      Key.plain] at *
    rw [hentry, ih]
    rfl

/-- **A snapshot is read as what it was taken of.** -/
theorem readSnapshot_snapshot (env : Environment) : readSnapshot env.snapshot = .ok env.bindings :=
  readEntries_snapshotEntries env.sorted

/-! ## Snapshots in documents -/

/-- The texts of the floats in an environment give them back. -/
def ReadsBack (env : Environment) : Prop :=
  ∀ v ∈ env.variables, ∀ x ∈ v.value.reals, Decimal.ReadsBack x

theorem itemsFaithful_map_real {xs : List Float} (h : ∀ x ∈ xs, Decimal.ReadsBack x) :
    Document.itemsFaithful (xs.map .real) := by
  induction xs with
  | nil => trivial
  | cons x xs ih =>
    obtain ⟨hx, hxs⟩ := List.forall_mem_cons.1 h
    exact ⟨hx, ih hxs⟩

theorem faithful_snapshotValue {value : Value}
    (h : ∀ x ∈ value.reals, Decimal.ReadsBack x) : (snapshotValue value).Faithful := by
  cases value with
  | scalar x => exact h x List.mem_cons_self
  | vector a => exact itemsFaithful_map_real h
  | text s => trivial

theorem fieldsFaithful_snapshotEntries {vs : List Variable}
    (h : ∀ v ∈ vs, ∀ x ∈ v.value.reals, Decimal.ReadsBack x) :
    Document.fieldsFaithful (vs.map snapshotEntry) := by
  induction vs with
  | nil => trivial
  | cons v vs ih =>
    obtain ⟨hv, hvs⟩ := List.forall_mem_cons.1 h
    exact ⟨⟨by simp, trivial, faithful_snapshotValue hv, trivial⟩, ih hvs⟩

theorem faithful_snapshotDocument (hwf : env.WellFormed) (h : env.ReadsBack) :
    env.snapshotDocument.Faithful := by
  refine ⟨?_, fieldsFaithful_snapshotEntries fun v hv ↦ h v ((List.mergeSort_perm _ _).mem_iff.1 hv)⟩
  rw [List.map_map]
  exact nodup_names hwf

/-- **The text of a snapshot is read as the snapshot.** -/
theorem readDocument_save (hwf : env.WellFormed) (h : env.ReadsBack) :
    readDocument env.save = .ok env.snapshot := by
  have hfaithful : (Document.object [("variables", env.snapshotDocument)]).Faithful :=
    ⟨by simp, faithful_snapshotDocument hwf h, trivial⟩
  rw [readDocument, save, Document.parse?_render hfaithful]
  rfl

/-- **A snapshot brings all variables of one environment into another.**  Putting it back never
fails, whatever the two environments are, and what comes out of it is told by `Merged`: the names are
those of both, each variable of the snapshot has the value it had when the snapshot was taken, and
nothing else is different.  The same holds of the text of the snapshot, as long as the texts of its
finite floats give them back. -/
theorem exists_merged {source target : Environment} (hsource : source.Reachable)
    (htarget : target.Reachable) :
    ∃ result, target.update source.snapshot = .ok result ∧ Merged source target result ∧
      (source.ReadsBack → target.restore source.save = .ok result) := by
  have hupdate : target.update source.snapshot = .ok (target.putAll source.bindings) := by
    rw [update, readSnapshot_snapshot]
    rfl
  refine ⟨_, hupdate, merged_putAll hsource.wellFormed htarget.wellFormed, fun hread ↦ ?_⟩
  rw [restore, readDocument_save hsource.wellFormed hread]
  exact hupdate

/-- A snapshot of a number, a vector of odd numbers and a text is put back where the number already
was. -/
theorem exists_merged_three :
    let source := empty.afterAll [.set "a" (.value (.vector ⟨-0.0, 1.0 / 0.0, 0.0 / 0.0⟩)),
      .set "n" (.value (.scalar 2.5)), .set "t" (.value (.text "\x00\"ü𝒳"))]
    let target := empty.afterAll [.define "u" (.text "kept"), .define "n" (.text "old"), .get "n"]
    source.ReadsBack ∧ ∃ result, target.update source.snapshot = .ok result ∧
      target.restore source.save = .ok result ∧
      result.find? "u" = some ⟨"u", .text "kept", 0, false⟩ ∧
      result.find? "n" = some ⟨"n", .scalar 2.5, 1, true⟩ ∧
      result.find? "a" = some ⟨"a", .vector ⟨-0.0, 1.0 / 0.0, 0.0 / 0.0⟩, 2, false⟩ ∧
      result.find? "t" = some ⟨"t", .text "\x00\"ü𝒳", 3, false⟩ := by
  intro source target
  have hread : source.ReadsBack := by
    simp only [ReadsBack, Decimal.ReadsBack]
    decide +kernel
  have hnames : source.names = ["a", "n", "t"] := by
    rw [names, sorted, List.mergeSort_of_pairwise (by decide +kernel)]
    rfl
  obtain ⟨result, hupdate, hmerged, hrestore⟩ :=
    @exists_merged source target ⟨_, rfl⟩ ⟨_, rfl⟩
  refine ⟨hread, result, hupdate, hrestore hread, ?_, ?_, ?_, ?_⟩
  · exact hmerged.find?_of_none "u" (by decide +kernel)
  · exact hmerged.find?_of_both "n" _ _ (by rfl) (by rfl)
  · exact hmerged.find?_of_new 0 "a" _ (by rw [hnames]; rfl) (by rfl)
  · exact hmerged.find?_of_new 1 "t" _ (by rw [hnames]; rfl) (by rfl)

end Environment

end Reckoner
