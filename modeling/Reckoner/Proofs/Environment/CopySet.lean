import Reckoner.Proofs.Environment.Access
import Reckoner.Proofs.Environment.Creation

/-!
# Copies of a set

A copy of a set takes the names with a head in order and makes a variable for each, under the name
with the other head.  Which copies are made is settled before the first of them; what each one holds
is read when its turn comes.  If one head begins with the other, a new name can be the name of a
variable that is to be copied itself, and whether that one still has its old value then is a matter
of the order.

`find?_copyAll` tells what stands under one of the new names after all copies were made: the name
has the slot that its turn gives it, and holds what its source held before the first copy, unless
the source was itself made anew by an earlier copy.  In that case the two hold the same afterwards.
`Environment.Displaced` says of a name, in terms of the environment before, that this is so, and
`exists_copied` is the statement for sets.  So the copies have the old values where no copied
variable is displaced (`not_forall_copied_before` is about a set where one is).
-/

set_option autoImplicit false

namespace Reckoner

namespace Environment

variable {env env' : Environment} {oldHead newHead : String}

/-! ## One copy -/

/-- A copy of a variable under another name. -/
theorem find?_copy_self {newName oldName : String} {v : Variable} (hne : newName ≠ oldName)
    (hfind : env.find? oldName = some v) (hcopy : env.copy newName oldName = .ok env') :
    env'.find? newName = some ⟨newName, v.value, env.nextSlot, false⟩ := by
  obtain ⟨w, hw, rfl⟩ := (copy_eq_ok_iff hne).1 hcopy
  obtain rfl : v = w := Option.some.inj (hfind.symm.trans hw)
  exact find?_create_self (find?_erase_self env newName) v.value

theorem find?_copy_of_ne {newName oldName other : String} (hne : newName ≠ oldName)
    (hother : other ≠ newName) (hcopy : env.copy newName oldName = .ok env') :
    env'.find? other = env.find? other := by
  obtain ⟨v, _, rfl⟩ := (copy_eq_ok_iff hne).1 hcopy
  rw [find?_create_of_ne _ _ hother, find?_erase_of_ne env hother]

/-! ## One copy after the other -/

section CopyAll

variable {target : String → String} {sources : List String}

/-- A name for which no copy is made has what it had. -/
theorem find?_copyAll_of_not_mem (hne : ∀ name ∈ sources, target name ≠ name)
    (hall : sources.foldlM (fun env name ↦ env.copy (target name) name) env = .ok env')
    {name : String} (hname : name ∉ sources.map target) : env'.find? name = env.find? name := by
  induction sources generalizing env with
  | nil =>
    cases hall
    rfl
  | cons source sources ih =>
    obtain ⟨hfirst, hne⟩ := List.forall_mem_cons.1 hne
    rw [List.map_cons, List.mem_cons, not_or] at hname
    rw [List.foldlM_cons] at hall
    cases hcopy : env.copy (target source) source with
    | error e =>
      rw [hcopy] at hall
      cases hall
    | ok next =>
      rw [hcopy] at hall
      rw [ih hne hall hname.2, find?_copy_of_ne hfirst hname.1 hcopy]

/-- **The copy that is made at a turn** has the slot of that turn.  It holds what its source held
before, unless one of the copies before it went to the source. -/
theorem find?_copyAll (h : env.WellFormed) {before after : List String} {source : String}
    (hsources : ∀ name ∈ before ++ source :: after, env.has name = true ∧ target name ≠ name)
    (hnodup : ((before ++ source :: after).map target).Nodup)
    (hall : (before ++ source :: after).foldlM (fun env name ↦ env.copy (target name) name) env =
      .ok env') :
    ∃ v, env'.find? (target source) =
        some ⟨target source, v.value, env.nextSlot + before.length, false⟩ ∧
      (source ∉ before.map target → env.find? source = some v) ∧
      (source ∈ before.map target → env'.find? source = some v) := by
  have hne : ∀ name ∈ before ++ source :: after, target name ≠ name := fun name hname ↦
    (hsources name hname).2
  obtain ⟨hneBefore, hneRest⟩ := List.forall_mem_append.1 hne
  obtain ⟨hneSource, hneAfter⟩ := List.forall_mem_cons.1 hneRest
  rw [List.map_append] at hnodup
  obtain ⟨hnodupBefore, hnodupRest, hdisjoint⟩ := List.nodup_append'.1 hnodup
  have hsourcesBefore := (List.forall_mem_append.1 hsources).1
  obtain ⟨mid, hbefore, _⟩ := follows_copyAll h hsourcesBefore
  have hrest : (source :: after).foldlM (fun env name ↦ env.copy (target name) name) mid =
      .ok env' := by
    rw [List.foldlM_append, hbefore] at hall
    exact hall
  have hslot : mid.nextSlot = env.nextSlot + before.length := by
    rw [(makes_copyAll h hsourcesBefore hnodupBefore hbefore).nextSlot_eq, List.length_map]
  -- The turn itself reads what the copies before it have left under the name of the source.
  obtain ⟨v, hv, next, hcopy, hafter⟩ : ∃ v, mid.find? source = some v ∧
      ∃ next, mid.copy (target source) source = .ok next ∧
        after.foldlM (fun env name ↦ env.copy (target name) name) next = .ok env' := by
    rw [List.foldlM_cons] at hrest
    cases hcopy : mid.copy (target source) source with
    | error e =>
      rw [hcopy] at hrest
      cases hrest
    | ok next =>
      rw [hcopy] at hrest
      obtain ⟨v, hv, _⟩ := (copy_eq_ok_iff hneSource).1 hcopy
      exact ⟨v, hv, next, rfl, hrest⟩
  refine ⟨v, ?_, fun hnot ↦ ?_, fun hmem ↦ ?_⟩
  · rw [find?_copyAll_of_not_mem hneAfter hafter (List.nodup_cons.1 hnodupRest).1,
      find?_copy_self hneSource hv hcopy, hslot]
  · rw [← find?_copyAll_of_not_mem hneBefore hbefore hnot, hv]
  · rw [find?_copyAll_of_not_mem hneRest hrest (hdisjoint hmem), hv]

end CopyAll

/-! ## Copies of a set -/

theorem startsWith_iff {head name : String} :
    startsWith head name = true ↔ ∃ rest, name = head ++ rest := by
  rw [startsWith, List.isPrefixOf_iff_prefix]
  constructor
  · rintro ⟨rest, hrest⟩
    exact ⟨String.ofList rest, String.toList_inj.1 (by
      rw [String.toList_append, String.toList_ofList, hrest])⟩
  · rintro ⟨rest, rfl⟩
    exact ⟨rest.toList, String.toList_append.symm⟩

@[simp] theorem replaceHead_append (oldHead newHead rest : String) :
    replaceHead oldHead newHead (oldHead ++ rest) = newHead ++ rest := by
  rw [replaceHead, String.toList_append, ← String.length_toList, List.drop_left,
    String.ofList_toList]

theorem mem_namesWithHead_iff {head name : String} :
    name ∈ env.namesWithHead head ↔ env.has name = true ∧ ∃ rest, name = head ++ rest := by
  rw [namesWithHead, List.mem_filter, mem_names_iff, startsWith_iff]

theorem pairwise_namesWithHead (h : env.WellFormed) (head : String) :
    (env.namesWithHead head).Pairwise (· < ·) :=
  (pairwise_names h).filter _

/-- The variable of a name is made anew, as a copy of one whose name comes before it, when its own
turn comes. -/
def Displaced (env : Environment) (oldHead newHead name : String) : Prop :=
  ∃ rest, env.has (oldHead ++ rest) = true ∧ newHead ++ rest = name ∧ oldHead ++ rest < name

/-- What was copied before a turn are the names that come before. -/
theorem displaced_iff (h : env.WellFormed) {before after : List String} {name : String}
    (hsources : env.namesWithHead oldHead = before ++ name :: after) :
    env.Displaced oldHead newHead name ↔ name ∈ before.map (replaceHead oldHead newHead) := by
  have hordered := hsources ▸ pairwise_namesWithHead h oldHead
  obtain ⟨_, hrest, hbefore⟩ := List.pairwise_append.1 hordered
  constructor
  · rintro ⟨rest, hhas, htarget, hlt⟩
    have hmem : oldHead ++ rest ∈ before ++ name :: after :=
      hsources ▸ mem_namesWithHead_iff.2 ⟨hhas, rest, rfl⟩
    rw [List.mem_append, List.mem_cons] at hmem
    obtain hmem | heq | hmem := hmem
    · exact List.mem_map.2 ⟨_, hmem, by rw [replaceHead_append, htarget]⟩
    · exact absurd heq hlt.ne
    · exact absurd ((List.pairwise_cons.1 hrest).1 _ hmem) hlt.asymm
  · intro hmem
    obtain ⟨source, hsource, htarget⟩ := List.mem_map.1 hmem
    have hlisted : source ∈ env.namesWithHead oldHead :=
      hsources ▸ List.mem_append_left _ hsource
    obtain ⟨hhas, rest, rfl⟩ := mem_namesWithHead_iff.1 hlisted
    rw [replaceHead_append] at htarget
    exact ⟨rest, hhas, htarget, hbefore _ hsource _ List.mem_cons_self⟩

/-- **What a copy of a set copies.**  Every variable that has the old head gets a counterpart with
the new one.  The counterpart has the value that the variable had before the call, unless the
variable is itself made anew as the copy of one that comes before it in the order of names; in that
case it has the value which the variable has after the call. -/
theorem exists_copied (h : env.Reachable) (hne : oldHead ≠ newHead)
    (hsome : ∃ name, env.has name = true ∧ startsWith oldHead name = true) :
    ∃ names env', env.copySet oldHead newHead = .ok (names, env') ∧
      ∀ rest v, env.find? (oldHead ++ rest) = some v →
        ∃ w, env'.find? (newHead ++ rest) = some w ∧
          (¬ env.Displaced oldHead newHead (oldHead ++ rest) → w.value = v.value) ∧
          (env.Displaced oldHead newHead (oldHead ++ rest) →
            ∃ u, env'.find? (oldHead ++ rest) = some u ∧ w.value = u.value) := by
  have hwf := h.wellFormed
  have hlisted : env.namesWithHead oldHead ≠ [] := by
    obtain ⟨name, hhas, hhead⟩ := hsome
    exact List.ne_nil_of_mem (List.mem_filter.2 ⟨mem_names_iff.2 hhas, hhead⟩)
  obtain ⟨env', hall, hcopy, _⟩ := exists_copyAll hwf hne hlisted
  refine ⟨_, env', hcopy, fun rest v hv ↦ ?_⟩
  obtain ⟨before, after, hsources⟩ := List.append_of_mem
    (mem_namesWithHead_iff.2 ⟨has_of_find? hv, rest, rfl⟩)
  have hgood := env.forall_mem_namesWithHead hne
  have hnodup := nodup_copyTargets hwf oldHead newHead
  rw [copyTargets] at hnodup
  rw [hsources] at hgood hnodup hall
  obtain ⟨u, hcopied, hkept, hmade⟩ := find?_copyAll hwf hgood hnodup hall
  rw [replaceHead_append] at hcopied
  refine ⟨_, hcopied, fun hnot ↦ ?_, fun hdisplaced ↦ ?_⟩
  · have hold := hkept (mt (displaced_iff hwf hsources).2 hnot)
    rw [Option.some.inj (hold.symm.trans hv)]
  · exact ⟨u, hmade ((displaced_iff hwf hsources).1 hdisplaced), rfl⟩

/-- `a` is copied to `aa` before `aa` is copied to `aaa`. -/
theorem exists_copied_late :
    let env := empty.afterAll [.define "a" (.text "first"), .define "aa" (.text "second")]
    env.Displaced "a" "aa" "aa" ∧ ∃ names env' w u, env.copySet "a" "aa" = .ok (names, env') ∧
      env'.find? "aaa" = some w ∧ env'.find? "aa" = some u ∧ w.value = u.value := by
  intro env
  have hdisplaced : env.Displaced "a" "aa" "aa" := ⟨"", by decide +kernel, rfl, by decide +kernel⟩
  obtain ⟨names, env', hcopy, hcopied⟩ :=
    @exists_copied env "a" "aa" ⟨_, rfl⟩ (by decide) ⟨"a", by decide +kernel, by decide +kernel⟩
  obtain ⟨w, hw, _, hlate⟩ := hcopied "a" ⟨"aa", .text "second", 1, false⟩ (by rfl)
  obtain ⟨u, hu, hvalue⟩ := hlate hdisplaced
  exact ⟨hdisplaced, names, env', w, u, hcopy, hw, hu, hvalue⟩

/-- A copy of a set does not always copy the values that the variables had before the call: if `a`
and `aa` are copied with another `a` before them, `aaa` gets what `a` had and not what `aa` had. -/
theorem not_forall_copied_before :
    ¬ ∀ (env : Environment) (oldHead newHead : String), env.Reachable → oldHead ≠ newHead →
      (∃ name, env.has name = true ∧ startsWith oldHead name = true) →
        ∃ names env', env.copySet oldHead newHead = .ok (names, env') ∧
          ∀ rest v, env.find? (oldHead ++ rest) = some v →
            ∃ w, env'.find? (newHead ++ rest) = some w ∧ w.value = v.value := by
  intro h
  let env := empty.afterAll [.define "a" (.text "first"), .define "aa" (.text "second")]
  have hnames : env.namesWithHead "a" = ["a", "aa"] := by
    rw [namesWithHead, names, sorted, List.mergeSort_of_pairwise (by decide +kernel)]
    rfl
  obtain ⟨names, env', hcopy, hcopied⟩ :=
    h env "a" "aa" ⟨_, rfl⟩ (by decide) ⟨"a", by decide +kernel, by decide +kernel⟩
  obtain ⟨w, hw, hvalue⟩ := hcopied "a" ⟨"aa", .text "second", 1, false⟩ (by rfl)
  have hcomputed : env' = ⟨[⟨"a", .text "first", 0, false⟩, ⟨"aa", .text "first", 2, false⟩,
      ⟨"aaa", .text "first", 3, false⟩], 4⟩ := by
    rw [copySet, if_neg (by decide), hnames] at hcopy
    exact (congrArg Prod.snd (Except.ok.inj hcopy)).symm
  rw [hcomputed] at hw
  obtain rfl := Option.some.inj hw
  exact absurd hvalue (by decide)

end Environment

end Reckoner
