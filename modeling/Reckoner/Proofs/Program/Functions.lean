import Reckoner.Program.Run
import Reckoner.Scope
import Mathlib.Data.List.Forall2

/-!
# Functions by name and by code

Compiled code knows a function by its code, which is its place in the table.

* A table that was made from a list of entries has them in their places
  (`FunctionTable.functions_of_ofList`).
* A run that was given what the functions of the table compute finds the function of a name at its
  code (`FunctionTable.functionAt?_of_find?`).
* Of a table of standard functions a run is given just these (`FunctionTable.builtins_of_ofList`),
  and the functions take as many arguments as the table says.
-/

set_option autoImplicit false

namespace Reckoner

theorem Builtin.ofName?_name (b : Builtin) : ofName? b.name = some b := by
  cases b with
  | real function => cases function <;> rfl
  | _ => rfl

namespace FunctionTable

/-- The function that an entry with its place makes. -/
def ofEntry (e : (String × Int) × Nat) : Function := ⟨e.1.1, e.2, e.1.2.toNat⟩

/-- The code of each function is its place in the table. -/
def InPlace (table : FunctionTable) : Prop :=
  ∀ (i : Nat) (f : Function), table.functions[i]? = some f → f.code = i

theorem functions_of_add {table table' : FunctionTable} {name : String} {arity : Int}
    (h : table.add name arity = .ok table') :
    table'.functions = table.functions ++ [⟨name, table.size, arity.toNat⟩] := by
  unfold FunctionTable.add at h
  split at h
  · cases h
  split at h
  · cases h
  split at h
  · cases h
  cases h
  rfl

theorem functions_of_addAll {entries earlier : List (String × Int)} {table table' : FunctionTable}
    (h : table.functions = earlier.zipIdx.map ofEntry)
    (hadd : entries.foldlM (fun table entry ↦ table.add entry.1 entry.2) table = .ok table') :
    table'.functions = (earlier ++ entries).zipIdx.map ofEntry := by
  induction entries generalizing table earlier with
  | nil =>
    cases hadd
    rw [List.append_nil, h]
  | cons entry entries ih =>
    rw [List.foldlM_cons] at hadd
    cases hfirst : table.add entry.1 entry.2 with
    | error e =>
      rw [hfirst] at hadd
      cases hadd
    | ok first =>
      rw [hfirst] at hadd
      have hsize : table.size = earlier.length := by
        rw [size, h, List.length_map, List.length_zipIdx]
      rw [List.append_cons]
      refine ih ?_ hadd
      rw [functions_of_add hfirst, h, hsize, List.zipIdx_append, List.map_append]
      simp [ofEntry]

/-- **A table has the entries that it was made from in their places.** -/
theorem functions_of_ofList {entries : List (String × Int)} {table : FunctionTable}
    (h : ofList entries = .ok table) :
    table.functions = entries.zipIdx.map ofEntry := by
  have hempty : (⟨[]⟩ : FunctionTable).functions =
      ([] : List (String × Int)).zipIdx.map ofEntry := rfl
  simpa using functions_of_addAll hempty h

/-- A table that was made from entries has each function in its place. -/
theorem inPlace_of_ofList {entries : List (String × Int)} {table : FunctionTable}
    (h : ofList entries = .ok table) : table.InPlace := by
  intro i f hf
  rw [functions_of_ofList h, List.getElem?_map, List.getElem?_zipIdx] at hf
  obtain ⟨⟨entry, code⟩, hentry, rfl⟩ := Option.map_eq_some_iff.1 hf
  obtain ⟨_, _, heq⟩ := Option.map_eq_some_iff.1 hentry
  cases heq
  exact Nat.zero_add i

/-- Results that were all found stand in the places of what they were found for. -/
theorem forall₂_of_mapM {α β ε : Type} {g : α → Except ε β} {as : List α} {bs : List β}
    (h : as.mapM g = .ok bs) : List.Forall₂ (fun a b ↦ g a = .ok b) as bs := by
  induction as generalizing bs with
  | nil =>
    cases h
    exact .nil
  | cons a as ih =>
    rw [List.mapM_cons] at h
    cases hfirst : g a with
    | error e =>
      rw [hfirst] at h
      cases h
    | ok b =>
      cases hrest : as.mapM g with
      | error e =>
        rw [hfirst, hrest] at h
        cases h
      | ok bs =>
        rw [hfirst, hrest] at h
        cases h
        exact .cons hfirst (ih hrest)

/-- There are as many computed functions as functions in the table. -/
theorem length_builtins {table : FunctionTable} {builtins : List Builtin}
    (h : table.builtins = .ok builtins) : builtins.length = table.size :=
  (forall₂_of_mapM h).length_eq.symm

/-- What the functions of a table compute stands in their places. -/
theorem builtin_of_getElem? {table : FunctionTable} {builtins : List Builtin}
    (h : table.builtins = .ok builtins) {i : Nat} {f : Function}
    (hi : table.functions[i]? = some f) :
    ∃ b, Builtin.ofName? f.name = some b ∧ builtins[i]? = some b := by
  obtain ⟨hlt, rfl⟩ := List.getElem?_eq_some_iff.1 hi
  have hlt' : i < builtins.length := length_builtins h ▸ hlt
  have hb := (List.forall₂_iff_get.1 (forall₂_of_mapM h)).2 i hlt hlt'
  refine ⟨builtins[i], ?_, List.getElem?_eq_getElem hlt'⟩
  split at hb
  · next hsome => exact hsome.trans (congrArg some (Except.ok.inj hb))
  · cases hb

/-- **The function of a name is found at its code.** -/
theorem functionAt?_of_find? {table : FunctionTable} {builtins : List Builtin}
    (h : table.InPlace) (hbuiltins : table.builtins = .ok builtins) {name : String} {f : Function}
    (hfind : table.find? name = some f) :
    ∃ b, Builtin.ofName? name = some b ∧ functionAt? builtins f.code = some b := by
  have hname : f.name = name := by simpa using List.find?_some hfind
  obtain ⟨i, hi⟩ := List.mem_iff_getElem?.1 (List.mem_of_find?_eq_some hfind)
  obtain ⟨b, hb, hat⟩ := builtin_of_getElem? hbuiltins hi
  refine ⟨b, hname ▸ hb, ?_⟩
  rw [functionAt?, h i f hi, if_pos (Int.natCast_nonneg i), Int.toNat_natCast, hat]

/-! ## Tables of standard functions -/

section

variable {selection : List Builtin} {table : FunctionTable}

theorem names_of_ofList {entries : List (String × Int)} (h : ofList entries = .ok table) :
    table.names = entries.map (·.1) := by
  have hfirst : table.names = (entries.zipIdx.map (·.1)).map (·.1) := by
    rw [names, functions_of_ofList h, List.map_map, List.map_map]
    rfl
  rw [hfirst, List.zipIdx_map_fst]

/-- Functions with the names of standard functions are these functions. -/
theorem builtins_of_names {functions : List Function}
    (h : functions.map (·.name) = selection.map (·.name)) :
    builtins ⟨functions⟩ = .ok selection := by
  induction selection generalizing functions with
  | nil =>
    rw [List.map_nil, List.map_eq_nil_iff] at h
    rw [h]
    rfl
  | cons b selection ih =>
    obtain ⟨f, functions, rfl, hname, hrest⟩ := List.map_eq_cons_iff.1 h
    have hrest := ih hrest
    unfold builtins at hrest ⊢
    rw [List.mapM_cons, hname, Builtin.ofName?_name, hrest]
    rfl

/-- **A run of a table of standard functions is given these functions.** -/
theorem builtins_of_ofList
    (h : ofList (selection.map fun b ↦ (b.name, (b.arity : Int))) = .ok table) :
    table.builtins = .ok selection :=
  builtins_of_names ((names_of_ofList h).trans (List.map_map ..))

/-- The function of a name in a table of standard functions is found at its code, and takes as many
arguments as the table says. -/
theorem functionAt?_of_selection
    (h : ofList (selection.map fun b ↦ (b.name, (b.arity : Int))) = .ok table) {name : String}
    {f : Function} (hfind : table.find? name = some f) :
    ∃ b, functionAt? selection f.code = some b ∧ f.arity = b.arity := by
  obtain ⟨i, hi⟩ := List.mem_iff_getElem?.1 (List.mem_of_find?_eq_some hfind)
  rw [functions_of_ofList h, List.getElem?_map, List.getElem?_zipIdx, List.getElem?_map,
    Option.map_map, Option.map_map] at hi
  obtain ⟨b, hb, rfl⟩ := Option.map_eq_some_iff.1 hi
  refine ⟨b, ?_, Int.toNat_natCast _⟩
  simp [functionAt?, ofEntry, hb]

end

/-- The standard table is made from entries. -/
theorem ofList_standard :
    ofList (Builtin.all.map fun b ↦ (b.name, (b.arity : Int))) = .ok standard := by
  have h : (ofList (Builtin.all.map fun b ↦ (b.name, (b.arity : Int)))).toOption =
      some standard := by decide +kernel
  cases htable : ofList (Builtin.all.map fun b ↦ (b.name, (b.arity : Int))) with
  | error e =>
    rw [htable] at h
    cases h
  | ok table =>
    rw [htable] at h
    rw [Option.some.inj h]

theorem builtins_standard : standard.builtins = .ok Builtin.all := rfl

end FunctionTable

end Reckoner
