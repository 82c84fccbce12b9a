import Reckoner.Environment.Listing
import Reckoner.Proofs.Environment.Creation

/-!
# What a listing tells

The listing of the active variables and its digest are there to tell whether what was read has
changed, so they must not depend on anything else: not on the order in which variables were made,
not on their slots, not on variables that nobody read.

`Environment.activeValue?` is the value under which a name is active.  The active names with their
values, `Environment.activeValues`, are ordered by strictly increasing names
(`pairwise_activeValues`), and a strictly ordered list is known by its members
(`activeValues_congr`).  Names and listing are read off this list, whatever happened before
(`digest_congr`).  Values are the same when nothing tells them apart, so that a zero and the zero
with the other sign are two.
-/

set_option autoImplicit false

namespace Reckoner

namespace Environment

variable {env env' : Environment}

/-- The value under which a name is active. -/
def activeValue? (env : Environment) (name : String) : Option Value :=
  ((env.find? name).filter (·.active)).map (·.value)

/-- The active names with their values, in the order of the names. -/
def activeValues (env : Environment) : List (String × Value) :=
  (env.sorted.filter (·.active)).map fun v ↦ (v.name, v.value)

/-! ## The order of the listing -/

theorem pairwise_activeValues (h : env.WellFormed) :
    env.activeValues.Pairwise fun a b ↦ a.1 < b.1 :=
  List.pairwise_map.2 ((List.pairwise_map.1 (pairwise_names h)).filter _)

theorem nodup_activeValues (h : env.WellFormed) : env.activeValues.Nodup :=
  (pairwise_activeValues h).imp fun hlt heq ↦ (heq ▸ hlt).ne rfl

/-! ## What is in the listing -/

theorem mem_activeValues_iff (h : env.WellFormed) {name : String} {value : Value} :
    (name, value) ∈ env.activeValues ↔ env.activeValue? name = some value := by
  simp only [activeValues, activeValue?, List.mem_map, List.mem_filter, Prod.mk.injEq,
    Option.map_eq_some_iff, Option.filter_eq_some_iff, h.find?_eq_some_iff, sorted,
    (List.mergeSort_perm _ _).mem_iff]
  constructor
  · rintro ⟨v, ⟨hmem, hactive⟩, hname, hvalue⟩
    exact ⟨v, ⟨⟨hmem, hname⟩, hactive⟩, hvalue⟩
  · rintro ⟨v, ⟨⟨hmem, hname⟩, hactive⟩, hvalue⟩
    exact ⟨v, ⟨hmem, hactive⟩, hname, hvalue⟩

/-- The list of the active names with their values is known by what is in it. -/
theorem activeValues_congr (h : env.WellFormed) (h' : env'.WellFormed)
    (hsame : ∀ name, env.activeValue? name = env'.activeValue? name) :
    env.activeValues = env'.activeValues := by
  have hordered := pairwise_activeValues h
  have hordered' := pairwise_activeValues h'
  have hmem : ∀ entry, entry ∈ env.activeValues ↔ entry ∈ env'.activeValues := by
    rintro ⟨name, value⟩
    rw [mem_activeValues_iff h, mem_activeValues_iff h', hsame]
  have hperm : env.activeValues.Perm env'.activeValues :=
    (List.perm_ext_iff_of_nodup (nodup_activeValues h) (nodup_activeValues h')).2 hmem
  exact hperm.eq_of_pairwise (fun _ _ _ _ hab hba ↦ absurd hba hab.asymm) hordered hordered'

theorem activeNames_eq (env : Environment) : env.activeNames = env.activeValues.map Prod.fst := by
  rw [activeNames, activeValues, List.map_map]
  rfl

theorem listActive_eq (env : Environment) :
    env.listActive = String.join
      (env.activeValues.map fun entry ↦ entry.1 ++ " " ++ entry.2.describe ++ "\n") := by
  rw [listActive, listing, activeValues, List.map_map]
  rfl

/-- **The listing sees only the active values.**  After any two histories that leave the same names
active with the same values, the active names, their listing and its digest are the same. -/
theorem digest_congr (h : env.Reachable) (h' : env'.Reachable)
    (hsame : ∀ name, env.activeValue? name = env'.activeValue? name) :
    env.activeNames = env'.activeNames ∧ env.listActive = env'.listActive ∧
      env.digest = env'.digest := by
  have hvalues := activeValues_congr h.wellFormed h'.wellFormed hsame
  have hlisting : env.listActive = env'.listActive := by
    rw [listActive_eq, hvalues, ← listActive_eq]
  refine ⟨?_, hlisting, congrArg Text.md5 hlisting⟩
  rw [activeNames_eq, hvalues, ← activeNames_eq]

/-- Two variables that are read, made in one order and in the other; in the second history one of
them was taken out and made anew, and there is a third that nobody reads. -/
theorem digest_congr_reordered :
    let env := empty.afterAll
      [.define "x" (.text "one"), .define "y" (.text "two"), .get "x", .get "y"]
    let env' := empty.afterAll
      [.define "y" (.text "two"), .define "x" (.text "old"), .define "z" (.text "three"),
        .remove "x", .define "x" (.text "one"), .get "y", .get "x"]
    (∀ name, env.activeValue? name = env'.activeValue? name) ∧ env.keys ≠ env'.keys ∧
      env.activeNames = env'.activeNames ∧ env.listActive = env'.listActive ∧
      env.digest = env'.digest := by
  intro env env'
  have henv : env = ⟨[⟨"x", .text "one", 0, true⟩, ⟨"y", .text "two", 1, true⟩], 2⟩ := by rfl
  have henv' : env' = ⟨[⟨"y", .text "two", 0, true⟩, ⟨"z", .text "three", 2, false⟩,
      ⟨"x", .text "one", 3, true⟩], 4⟩ := by rfl
  have hsame : ∀ name, env.activeValue? name = env'.activeValue? name := by
    intro name
    by_cases hx : name = "x"
    · rw [hx, henv, henv']
      rfl
    by_cases hy : name = "y"
    · rw [hy, henv, henv']
      rfl
    by_cases hz : name = "z"
    · rw [hz, henv, henv']
      rfl
    · simp [activeValue?, find?, henv, henv', Ne.symm hx, Ne.symm hy, Ne.symm hz]
  exact ⟨hsame, by decide +kernel, digest_congr ⟨_, rfl⟩ ⟨_, rfl⟩ hsame⟩

end Environment

end Reckoner
