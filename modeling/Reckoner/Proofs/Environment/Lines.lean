import Reckoner.Proofs.Environment.Listing
import Reckoner.Proofs.Value.Describe

/-!
# What two listings have in common

The listing of the active variables has a line for each of them, with its name, a blank and its
value.  Nothing in it is quoted, and nothing says of which kind a value is, so three pairs of
environments are alike in their listings and not in what is active (`listActive_collisions`): a
number is written as a text that spells it, a blank in a name moves a word to the value, and a line
break in a text starts the line of another variable.

These are all.  Without such blanks and line breaks (`Environment.Plain`) a listing is split into
its lines, and a line at its first blank, in one way only (`entries_of_lines`).  So the listing
tells the active names, and of each value all but whether it is a text that spells a value
(`listActive_eq_iff`).
-/

set_option autoImplicit false

namespace Reckoner

namespace Environment

variable {env env' : Environment}

/-! ## Lines -/

/-- The line of a name and its value. -/
def entryLine (entry : String × Value) : List Char :=
  entry.1.toList ++ ' ' :: (entry.2.describe.toList ++ ['\n'])

/-- A name and its value are told apart in their line, and the line is told from what follows. -/
def PlainEntry (entry : String × Value) : Prop :=
  ' ' ∉ entry.1.toList ∧ '\n' ∉ entry.2.describe.toList

theorem entry_of_line {entry entry' : String × Value} (h : PlainEntry entry)
    (h' : PlainEntry entry') {rest rest' : List Char}
    (heq : entryLine entry ++ rest = entryLine entry' ++ rest') :
    entry.map id Value.describe = entry'.map id Value.describe ∧ rest = rest' := by
  have hsplit (entry : String × Value) (rest : List Char) : entryLine entry ++ rest =
      entry.1.toList ++ ' ' :: (entry.2.describe.toList ++ '\n' :: rest) := by
    simp [entryLine]
  rw [hsplit, hsplit] at heq
  obtain ⟨hname, heq⟩ := append_separator_inj h.1 h'.1 heq
  obtain ⟨hvalue, hrest⟩ := append_separator_inj h.2 h'.2 heq
  exact ⟨Prod.ext (String.toList_injective hname) (String.toList_injective hvalue), hrest⟩

/-- **Lines are split in one way.** -/
theorem entries_of_lines {entries entries' : List (String × Value)}
    (h : ∀ entry ∈ entries, PlainEntry entry) (h' : ∀ entry ∈ entries', PlainEntry entry)
    (heq : entries.flatMap entryLine = entries'.flatMap entryLine) :
    entries.map (Prod.map id Value.describe) = entries'.map (Prod.map id Value.describe) := by
  have hne (entry : String × Value) (rest : List Char) : entryLine entry ++ rest ≠ [] := by
    simp [entryLine]
  induction entries generalizing entries' with
  | nil =>
    cases entries' with
    | nil => rfl
    | cons entry' entries' => exact absurd heq.symm (hne entry' _)
  | cons entry entries ih =>
    cases entries' with
    | nil => exact absurd heq (hne entry _)
    | cons entry' entries' =>
      obtain ⟨hentry, hentries⟩ := List.forall_mem_cons.1 h
      obtain ⟨hentry', hentries'⟩ := List.forall_mem_cons.1 h'
      rw [List.flatMap_cons, List.flatMap_cons] at heq
      obtain ⟨hhead, hrest⟩ := entry_of_line hentry hentry' heq
      rw [List.map_cons, List.map_cons, hhead, ih hentries hentries' hrest]

/-! ## Listings -/

/-- The lines of the listing. -/
theorem toList_listActive (env : Environment) :
    env.listActive.toList = env.activeValues.flatMap entryLine := by
  rw [listActive_eq, String.toList_join, List.flatMap_map]
  refine congrArg (List.flatMap · env.activeValues) (funext fun entry ↦ ?_)
  simp [entryLine]

/-- The listing is known by the active names and what is written for their values. -/
theorem listActive_congr (heq : env.activeValues.map (Prod.map id Value.describe) =
    env'.activeValues.map (Prod.map id Value.describe)) : env.listActive = env'.listActive := by
  have hlines (env : Environment) : env.listActive = String.join
      ((env.activeValues.map (Prod.map id Value.describe)).map
        fun entry ↦ entry.1 ++ " " ++ entry.2 ++ "\n") := by
    rw [listActive_eq, List.map_map]
    rfl
  rw [hlines, hlines, heq]

/-- No active name has a blank, and no active text a line break. -/
structure Plain (env : Environment) : Prop where
  name : ∀ name ∈ env.activeNames, ' ' ∉ name.toList
  text : ∀ name s, env.activeValue? name = some (.text s) → '\n' ∉ s.toList

theorem Plain.entry (hplain : env.Plain) (h : env.WellFormed) :
    ∀ entry ∈ env.activeValues, PlainEntry entry := by
  rintro ⟨name, value⟩ hmem
  have hname : name ∈ env.activeNames := by
    rw [activeNames_eq]
    exact List.mem_map_of_mem hmem
  refine ⟨hplain.name name hname, Value.not_mem_describe ?_⟩
  rintro s rfl
  exact hplain.text name s ((mem_activeValues_iff h).1 hmem)

/-- What is written for the values of the active names, if both environments have the same ones. -/
theorem map_describe_eq_iff (h : env.WellFormed) (h' : env'.WellFormed) :
    env.activeValues.map (Prod.map id Value.describe) =
        env'.activeValues.map (Prod.map id Value.describe) ↔
      env.activeNames = env'.activeNames ∧
        ∀ name v w, env.activeValue? name = some v → env'.activeValue? name = some w →
          v.describe = w.describe := by
  have hnames (env : Environment) :
      env.activeNames = (env.activeValues.map (Prod.map id Value.describe)).map Prod.fst := by
    rw [activeNames_eq, List.map_map]
    rfl
  constructor
  · intro heq
    refine ⟨by rw [hnames, hnames, heq], fun name v w hv hw ↦ ?_⟩
    have hmem : (name, v.describe) ∈ env'.activeValues.map (Prod.map id Value.describe) :=
      heq ▸ List.mem_map.2 ⟨(name, v), (mem_activeValues_iff h).2 hv, rfl⟩
    obtain ⟨⟨name', w'⟩, hmem', hsame⟩ := List.mem_map.1 hmem
    obtain ⟨rfl, hdescribe⟩ := Prod.mk.inj hsame
    obtain rfl := Option.some.inj (((mem_activeValues_iff h').1 hmem').symm.trans hw)
    exact hdescribe.symm
  · rintro ⟨hactive, hdescribe⟩
    rw [activeNames_eq, activeNames_eq] at hactive
    have hlength : env.activeValues.length = env'.activeValues.length := by
      simpa using congrArg List.length hactive
    refine List.ext_getElem (by simpa using hlength) fun i hi hi' ↦ ?_
    rw [List.length_map] at hi hi'
    have hname : env.activeValues[i].1 = env'.activeValues[i].1 := by
      simpa [hi, hi'] using congrArg (·[i]?) hactive
    rw [List.getElem_map, List.getElem_map]
    refine Prod.ext hname (hdescribe env.activeValues[i].1 _ _
      ((mem_activeValues_iff h).1 (List.getElem_mem hi)) ?_)
    rw [hname]
    exact (mem_activeValues_iff h').1 (List.getElem_mem hi')

/-- **What a listing tells.**  After any two histories that leave no blank in an active name and no
line break in an active text, the listings are the same exactly if the same names are active, and
each with the same value in both, but for a text in the one that spells a number or a vector in the
other. -/
theorem listActive_eq_iff (h : env.Reachable) (h' : env'.Reachable) (hplain : env.Plain)
    (hplain' : env'.Plain) :
    env.listActive = env'.listActive ↔
      env.activeNames = env'.activeNames ∧
        ∀ name v w, env.activeValue? name = some v → env'.activeValue? name = some w →
          v = w ∨ v.Spelled w := by
  have hwritten := map_describe_eq_iff h.wellFormed h'.wellFormed
  simp only [Value.describe_eq_iff] at hwritten
  rw [← hwritten]
  refine ⟨fun heq ↦ ?_, listActive_congr⟩
  refine entries_of_lines (hplain.entry h.wellFormed) (hplain'.entry h'.wellFormed) ?_
  rw [← toList_listActive, ← toList_listActive, heq]

/-- A number in one environment and the text that spells it in the other. -/
theorem listActive_eq_iff_spelled :
    let env := empty.afterAll [.define "t" (.real 1.0), .get "t"]
    let env' := empty.afterAll [.define "t" (.text "1.0"), .get "t"]
    env.Plain ∧ env'.Plain ∧ env.listActive = env'.listActive ∧
      env.activeNames = env'.activeNames ∧
        ∀ name v w, env.activeValue? name = some v → env'.activeValue? name = some w →
          v = w ∨ v.Spelled w := by
  intro env env'
  have hvalue (value : Value) (name : String) (s : String)
      (h : (⟨[⟨"t", value, 0, true⟩], 1⟩ : Environment).activeValue? name = some (.text s)) :
      value = .text s := by
    by_cases hname : "t" = name
    · subst hname
      exact Option.some.inj h
    · simp [activeValue?, find?, hname] at h
  have hplain : env.Plain := by
    refine ⟨by decide +kernel, fun name s h ↦ ?_⟩
    cases hvalue (.scalar 1.0) name s h
  have hplain' : env'.Plain := by
    refine ⟨by decide +kernel, fun name s h ↦ ?_⟩
    obtain rfl := Value.text.inj (hvalue (.text "1.0") name s h)
    decide
  have hlisting : env.listActive = env'.listActive := by decide +kernel
  exact ⟨hplain, hplain', hlisting,
    (listActive_eq_iff ⟨_, rfl⟩ ⟨_, rfl⟩ hplain hplain').1 hlisting⟩

/-- **A listing does not tell everything.**  Listings are the same though a number is a text that
spells it, though a word of a name is one of the text, and though the lines of two variables are
those of one text. -/
theorem listActive_collisions :
    (let env := empty.afterAll [.define "t" (.real 1.0), .get "t"]
      let env' := empty.afterAll [.define "t" (.text "1.0"), .get "t"]
      env.Reachable ∧ env'.Reachable ∧ env.listActive = env'.listActive ∧
        env.activeValue? "t" ≠ env'.activeValue? "t") ∧
    (let env := empty.afterAll [.define "a b" (.text "c"), .get "a b"]
      let env' := empty.afterAll [.define "a" (.text "b c"), .get "a"]
      env.Reachable ∧ env'.Reachable ∧ env.listActive = env'.listActive ∧
        env.activeNames ≠ env'.activeNames) ∧
    (let env := empty.afterAll [.define "a" (.text "1\nb 2"), .get "a"]
      let env' := empty.afterAll
        [.define "a" (.text "1"), .define "b" (.text "2"), .get "a", .get "b"]
      env.Reachable ∧ env'.Reachable ∧ env.listActive = env'.listActive ∧
        env.activeNames ≠ env'.activeNames) := by
  have hsorted : (empty.afterAll [.define "a" (.text "1"), .define "b" (.text "2"), .get "a",
      .get "b"]).sorted = [⟨"a", .text "1", 0, true⟩, ⟨"b", .text "2", 1, true⟩] := by
    rw [sorted, List.mergeSort_of_pairwise (by decide +kernel)]
    rfl
  refine ⟨⟨⟨_, rfl⟩, ⟨_, rfl⟩, by decide +kernel, by decide +kernel⟩,
    ⟨⟨_, rfl⟩, ⟨_, rfl⟩, by decide +kernel, by decide +kernel⟩, ⟨_, rfl⟩, ⟨_, rfl⟩, ?_⟩
  rw [listActive, listActive, activeNames, activeNames, hsorted]
  exact ⟨by decide +kernel, by decide +kernel⟩

end Environment

end Reckoner
