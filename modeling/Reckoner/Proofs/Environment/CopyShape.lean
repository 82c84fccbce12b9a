import Reckoner.Proofs.Environment.CopySet

/-!
# What a copied set leaves behind

A copy of a set can take variables out that it is still to copy, and it makes them anew before it
comes to them.  Whatever the order does to the values (`Environment.exists_copied` is about these),
it does nothing to names and slots: each source gets one counterpart, the counterparts own the next
slots in the order of their sources, and nothing else is touched.  `Environment.SetCopied` lists
what is so afterwards, and `exists_setCopied` says that every copy of a set ends like this.

Two facts carry the proof.  No two sources have one counterpart, so that no copy takes out what an
earlier one has made; and no name is lost when it is taken out, because it is made anew at once.
-/

set_option autoImplicit false

namespace Reckoner

namespace Environment

variable {env : Environment} {oldHead newHead : String}

/-- Variables whose names start with a head were copied, one after the other, to names with another
head instead.  The answer is the list of these names. -/
structure SetCopied (env : Environment) (oldHead newHead : String) (sources answer : List String)
    (env' : Environment) : Prop where
  /-- The sources are in order, each of them once. -/
  sources_ordered : sources.Pairwise (· < ·)
  /-- The sources are the names with the old head. -/
  mem_sources_iff : ∀ name, name ∈ sources ↔
    env.has name = true ∧ ∃ rest, name = oldHead ++ rest
  /-- The names in the answer are in order, each of them once. -/
  answer_ordered : answer.Pairwise (· < ·)
  /-- They are the sources with the new head. -/
  mem_answer_iff : ∀ name, name ∈ answer ↔
    ∃ rest, env.has (oldHead ++ rest) = true ∧ name = newHead ++ rest
  /-- The names are those that were there and those in the answer. -/
  has_iff : ∀ name, env'.has name = true ↔ env.has name = true ∨ name ∈ answer
  /-- The counterpart of a source has the slot of the source's turn, and is not active. -/
  find?_of_turn : ∀ (i : Nat) rest, sources[i]? = some (oldHead ++ rest) →
    ∃ value, env'.find? (newHead ++ rest) =
      some ⟨newHead ++ rest, value, env.nextSlot + i, false⟩
  /-- A slot is given out for each source. -/
  nextSlot_eq : env'.nextSlot = env.nextSlot + sources.length
  /-- The slots that the names in the answer owned are owned by none. -/
  findSlot?_of_mem : ∀ name v, name ∈ answer → env.find? name = some v →
    env'.findSlot? v.slot = none
  /-- Other variables are as they were, by name and by slot. -/
  find?_of_not_mem : ∀ name, name ∉ answer → env'.find? name = env.find? name ∧
    ∀ v, env.find? name = some v → env'.findSlot? v.slot = some v

/-- Different names that are sorted are in order, each of them once. -/
theorem pairwise_mergeSort_lt {names : List String} (h : names.Nodup) :
    (names.mergeSort fun a b ↦ decide (a ≤ b)).Pairwise (· < ·) := by
  have hne : (names.mergeSort fun a b ↦ decide (a ≤ b)).Pairwise (· ≠ ·) :=
    (List.mergeSort_perm names _).nodup_iff.2 h
  exact ((pairwise_mergeSort_le (fun name ↦ name) names).and hne).imp fun hab ↦
    lt_of_le_of_ne hab.1 hab.2

theorem mem_copyTargets_iff {name : String} :
    name ∈ env.copyTargets oldHead newHead ↔
      ∃ rest, env.has (oldHead ++ rest) = true ∧ name = newHead ++ rest := by
  rw [copyTargets, List.mem_map]
  constructor
  · rintro ⟨source, hsource, rfl⟩
    obtain ⟨hhas, rest, rfl⟩ := mem_namesWithHead_iff.1 hsource
    exact ⟨rest, hhas, replaceHead_append ..⟩
  · rintro ⟨rest, hhas, rfl⟩
    exact ⟨oldHead ++ rest, mem_namesWithHead_iff.2 ⟨hhas, rest, rfl⟩, replaceHead_append ..⟩

/-- What stands under the new name of a source, when all copies were made. -/
theorem find?_copySet_of_turn (h : env.WellFormed) (hne : oldHead ≠ newHead) {env' : Environment}
    (hall : (env.namesWithHead oldHead).foldlM
      (fun env name ↦ env.copy (replaceHead oldHead newHead name) name) env = .ok env')
    {i : Nat} {rest : String} (hi : (env.namesWithHead oldHead)[i]? = some (oldHead ++ rest)) :
    ∃ value, env'.find? (newHead ++ rest) =
      some ⟨newHead ++ rest, value, env.nextSlot + i, false⟩ := by
  obtain ⟨hlt, hget⟩ := List.getElem?_eq_some_iff.1 hi
  have hsplit : env.namesWithHead oldHead = (env.namesWithHead oldHead).take i ++
      (oldHead ++ rest) :: (env.namesWithHead oldHead).drop (i + 1) := by
    rw [← hget, ← List.drop_eq_getElem_cons hlt, List.take_append_drop]
  have hgood := env.forall_mem_namesWithHead hne
  have hnodup := nodup_copyTargets h oldHead newHead
  rw [copyTargets] at hnodup
  rw [hsplit] at hgood hnodup hall
  obtain ⟨v, hcopied, _⟩ := find?_copyAll h hgood hnodup hall
  rw [replaceHead_append, List.length_take, min_eq_left hlt.le] at hcopied
  exact ⟨v.value, hcopied⟩

/-- **What a copy of a set leaves behind.**  Let two heads be different, and let some variable have
the first one; one head may begin with the other, and there may be variables under the new names
already.  Then the copy succeeds, and it does to names, slots and marks what `SetCopied` says. -/
theorem exists_setCopied (h : env.Reachable) (hne : oldHead ≠ newHead)
    (hsome : ∃ rest, env.has (oldHead ++ rest) = true) :
    ∃ sources answer env', env.copySet oldHead newHead = .ok (answer, env') ∧
      SetCopied env oldHead newHead sources answer env' := by
  have hwf := h.wellFormed
  have hlisted : env.namesWithHead oldHead ≠ [] := by
    obtain ⟨rest, hhas⟩ := hsome
    exact List.ne_nil_of_mem (mem_namesWithHead_iff.2 ⟨hhas, rest, rfl⟩)
  obtain ⟨env', hall, hcopy, hfollows⟩ := exists_copyAll hwf hne hlisted
  have hmem : ∀ name, name ∈ (env.copyTargets oldHead newHead).mergeSort
      (fun a b ↦ decide (a ≤ b)) ↔ name ∈ env.copyTargets oldHead newHead := fun name ↦
    (List.mergeSort_perm _ _).mem_iff
  have hkeep : ∀ name, name ∉ env.copyTargets oldHead newHead →
      env'.find? name = env.find? name := fun name hname ↦
    find?_copyAll_of_not_mem (fun source hsource ↦ (env.forall_mem_namesWithHead hne _ hsource).2)
      hall hname
  refine ⟨env.namesWithHead oldHead, _, env', hcopy, ?_⟩
  constructor
  case sources_ordered => exact pairwise_namesWithHead hwf oldHead
  case mem_sources_iff => exact fun name ↦ mem_namesWithHead_iff
  case answer_ordered => exact pairwise_mergeSort_lt (nodup_copyTargets hwf oldHead newHead)
  case mem_answer_iff => exact fun name ↦ (hmem name).trans mem_copyTargets_iff
  case has_iff =>
    intro name
    rw [hmem]
    by_cases hname : name ∈ env.copyTargets oldHead newHead
    · obtain ⟨rest, hhas, rfl⟩ := mem_copyTargets_iff.1 hname
      obtain ⟨i, hi⟩ := List.mem_iff_getElem?.1 (mem_namesWithHead_iff.2 ⟨hhas, rest, rfl⟩)
      obtain ⟨value, hfind⟩ := find?_copySet_of_turn hwf hne hall hi
      exact iff_of_true (has_of_find? hfind) (.inr hname)
    · rw [has, hkeep name hname, ← has, or_iff_left hname]
  case find?_of_turn => exact fun i rest ↦ find?_copySet_of_turn hwf hne hall
  case nextSlot_eq =>
    rw [(makes_copySet hwf hne hcopy).nextSlot_eq, copyTargets, List.length_map]
  case findSlot?_of_mem =>
    intro name v hname hfind
    exact findSlot?_eq_none_of_forall
      (hfollows.not_owns hwf (owns_of_find? hfind) ((hmem name).1 hname))
  case find?_of_not_mem =>
    intro name hname
    have hsame := hkeep name (mt (hmem name).2 hname)
    refine ⟨hsame, fun v hv ↦ ?_⟩
    rw [← hsame] at hv
    exact hfollows.wellFormed.findSlot?_eq_some_iff.2 ⟨(find?_mem hv).1, rfl⟩

/-- `a` and `aa` are copied with another `a` before them, so that `aa` is made anew before its turn,
and `b` is left alone. -/
theorem exists_setCopied_overlapping :
    let env := empty.afterAll [.define "a" (.text "first"), .define "aa" (.text "second"),
      .define "b" (.text "third"), .get "b"]
    env.has ("a" ++ "") = true ∧ ∃ sources answer env',
      env.copySet "a" "aa" = .ok (answer, env') ∧ SetCopied env "a" "aa" sources answer env' ∧
        "aa" ∈ answer ∧ "aaa" ∈ answer ∧ env'.has "aaa" = true ∧ env'.findSlot? 1 = none ∧
        env'.find? "b" = some ⟨"b", .text "third", 2, true⟩ := by
  intro env
  have hhas : env.has ("a" ++ "") = true := by decide +kernel
  obtain ⟨sources, answer, env', hcopy, hcopied⟩ :=
    @exists_setCopied env "a" "aa" ⟨_, rfl⟩ (by decide) ⟨"", hhas⟩
  have hmade : "aa" ∈ answer := (hcopied.mem_answer_iff "aa").2 ⟨"", hhas, rfl⟩
  have hlater : "aaa" ∈ answer := (hcopied.mem_answer_iff "aaa").2 ⟨"a", by decide +kernel, rfl⟩
  have hother : "b" ∉ answer := by
    rw [hcopied.mem_answer_iff]
    rintro ⟨rest, _, heq⟩
    have hchars := congrArg String.toList heq
    simp at hchars
  refine ⟨hhas, sources, answer, env', hcopy, hcopied, hmade, hlater,
    (hcopied.has_iff "aaa").2 (.inr hlater),
    hcopied.findSlot?_of_mem "aa" ⟨"aa", .text "second", 1, false⟩ hmade (by rfl), ?_⟩
  rw [(hcopied.find?_of_not_mem "b" hother).1]
  rfl

end Environment

end Reckoner
