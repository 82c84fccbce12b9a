import Reckoner.Proofs.Program.Functions
import Mathlib.Data.List.Nodup

/-!
# What a call applies

A table of functions can be asked for a function by its name and by its code, and it lists its
functions in the order of their codes; a run has a list of its own, of what the functions compute.
`FunctionTable.calls_by_code` says that all of these mean the same by a code that the table knows.

By a code that the table does not know they do not.  A call with a code that is too large fails, but
one with a negative code applies a function all the same, the one that the code points to from the
end of the table (`FunctionTable.not_forall_unknown_code_fails`).
-/

set_option autoImplicit false

namespace Reckoner

/-- A call with a code applies a function: whatever number of arguments it is made with, on whatever
stack, it replaces the values that it takes by what the function gives for them, or fails as the
function does. -/
def Builtin.AppliedBy (b : Builtin) (builtins : List Builtin) (code : Int) : Prop :=
  ∀ (arity : Int) (stack : Stack) (env : Environment),
    (Operation.call code arity).step builtins stack env =
      (b.apply (stack.take (argumentCount stack.length arity)).reverse).map fun value ↦
        (value :: stack.drop (argumentCount stack.length arity), env)

/-- A call with a code finds no function to apply, and fails. -/
def FailsToApply (builtins : List Builtin) (code : Int) : Prop :=
  functionAt? builtins code = none ∧
    ∀ (arity : Int) (stack : Stack) (env : Environment),
      (Operation.call code arity).step builtins stack env = .error .outOfBounds

variable {builtins : List Builtin} {code : Int}

theorem appliedBy_of_functionAt? {b : Builtin} (h : functionAt? builtins code = some b) :
    b.AppliedBy builtins code := by
  intro arity stack env
  rw [Operation.step, callStep]
  simp only [h]
  cases b.apply (stack.take (argumentCount stack.length arity)).reverse <;> rfl

theorem failsToApply_of_functionAt? (h : functionAt? builtins code = none) :
    FailsToApply builtins code := by
  refine ⟨h, fun arity stack env ↦ ?_⟩
  rw [Operation.step, callStep]
  simp only [h]
  rfl

/-- A negative code points to the same function as the code of its place from the start. -/
theorem functionAt?_of_neg {i : Nat} (hi : i < builtins.length)
    (hcode : code = i - builtins.length) : functionAt? builtins code = builtins[i]? := by
  have hneg : ¬ 0 ≤ code := by omega
  have hplace : builtins.length - code.natAbs = i := by omega
  rw [functionAt?, if_neg hneg, if_pos (by omega), hplace]

/-- Codes below the table and beyond it point to nothing. -/
theorem functionAt?_eq_none (h : code < -builtins.length ∨ (builtins.length : Int) ≤ code) :
    functionAt? builtins code = none := by
  rw [functionAt?]
  rcases h with hbelow | hbeyond
  · rw [if_neg (by omega), if_neg (by omega)]
  · rw [if_pos (by omega), List.getElem?_eq_none (by omega)]

namespace FunctionTable

variable {entries : List (String × Int)} {table : FunctionTable}

/-! ## Lookups in a table -/

/-- A name is added to a table only once. -/
theorem nodup_names_of_add {table' : FunctionTable} {name : String} {arity : Int}
    (hnodup : table.names.Nodup) (h : table.add name arity = .ok table') : table'.names.Nodup := by
  have hfresh : name ∉ table.names := by
    intro hmem
    obtain ⟨f, hf, hname⟩ := List.mem_map.1 hmem
    have hfound : (table.find? name).isSome = true := by
      rw [find?, List.find?_isSome]
      exact ⟨f, hf, by simp [hname]⟩
    rw [add, if_pos hfound] at h
    cases h
  rw [names, functions_of_add h, List.map_append, List.map_singleton]
  exact List.Nodup.append hnodup (List.nodup_singleton _)
    (List.disjoint_singleton.2 hfresh)

theorem nodup_names_of_addAll (hnodup : table.names.Nodup) {table' : FunctionTable}
    (h : entries.foldlM (fun table entry ↦ table.add entry.1 entry.2) table = .ok table') :
    table'.names.Nodup := by
  induction entries generalizing table with
  | nil =>
    cases h
    exact hnodup
  | cons entry entries ih =>
    rw [List.foldlM_cons] at h
    cases hfirst : table.add entry.1 entry.2 with
    | error e =>
      rw [hfirst] at h
      cases h
    | ok first =>
      rw [hfirst] at h
      exact ih (nodup_names_of_add hnodup hfirst) h

/-- A table that was made from entries has no name twice. -/
theorem nodup_names_of_ofList (h : ofList entries = .ok table) : table.names.Nodup := by
  have hempty : (FunctionTable.mk []).names.Nodup := List.nodup_nil
  exact nodup_names_of_addAll hempty h

/-- A function of a table is found by its name. -/
theorem find?_of_mem (hnodup : table.names.Nodup) {f : Function} (hf : f ∈ table.functions) :
    table.find? f.name = some f := by
  cases hfind : table.find? f.name with
  | none => exact absurd (List.find?_eq_none.1 hfind f hf) (by simp)
  | some g =>
    have hname : g.name = f.name := by simpa using List.find?_some hfind
    rw [List.inj_on_of_nodup_map hnodup (List.mem_of_find?_eq_some hfind) hf hname]

theorem findCode?_eq_some_iff {f : Function} :
    table.findCode? code = some f ↔ ∃ i : Nat, code = i ∧ table.functions[i]? = some f := by
  rw [findCode?]
  constructor
  · intro h
    split at h
    · next hle => exact ⟨code.toNat, (Int.toNat_of_nonneg hle).symm, h⟩
    · cases h
  · rintro ⟨i, rfl, hi⟩
    rw [if_pos (Int.natCast_nonneg i), Int.toNat_natCast, hi]

theorem findCode?_eq_none_iff :
    table.findCode? code = none ↔ code < 0 ∨ (table.size : Int) ≤ code := by
  rw [findCode?, size]
  split
  · next hle =>
    rw [List.getElem?_eq_none_iff]
    omega
  · next hneg => exact iff_of_true rfl (.inl (Int.not_le.1 hneg))

/-! ## Calls -/

/-- **A call applies what the table has under its code.**  Let a table be made from any entries, and
let all its functions be built in.  What the table finds by a code has this code, is found by its
name as well, and its name is that of the function which a call with the code applies.  By a code
that the table does not know, a call applies the function that the code points to from the end of
the table; if there is none either, the call fails and applies nothing. -/
theorem calls_by_code (h : ofList entries = .ok table) (hbuiltins : table.builtins = .ok builtins)
    (code : Int) :
    (∀ f, table.findCode? code = some f →
      (f.code : Int) = code ∧ table.find? f.name = some f ∧
        ∃ b, Builtin.ofName? f.name = some b ∧ b.AppliedBy builtins code) ∧
    (table.findCode? code = none →
      (∀ f, table.findCode? (code + table.size) = some f →
        ∃ b, Builtin.ofName? f.name = some b ∧ b.AppliedBy builtins code) ∧
      (table.findCode? (code + table.size) = none → FailsToApply builtins code)) := by
  have hlength := length_builtins hbuiltins
  refine ⟨fun f hf ↦ ?_, fun hnone ↦ ⟨fun f hf ↦ ?_, fun hnone' ↦ ?_⟩⟩
  · obtain ⟨i, rfl, hi⟩ := findCode?_eq_some_iff.1 hf
    have hmem : f ∈ table.functions := List.mem_of_getElem? hi
    obtain ⟨b, hb, hat⟩ := builtin_of_getElem? hbuiltins hi
    have hcall : functionAt? builtins (i : Int) = some b := by
      rw [functionAt?, if_pos (Int.natCast_nonneg i), Int.toNat_natCast, hat]
    exact ⟨congrArg Nat.cast (inPlace_of_ofList h i f hi),
      find?_of_mem (nodup_names_of_ofList h) hmem, b, hb, appliedBy_of_functionAt? hcall⟩
  · obtain ⟨i, hplace, hi⟩ := findCode?_eq_some_iff.1 hf
    obtain ⟨b, hb, hat⟩ := builtin_of_getElem? hbuiltins hi
    have hlt : i < builtins.length := (List.getElem?_eq_some_iff.1 hat).1
    have hcall : functionAt? builtins code = some b := by
      rw [functionAt?_of_neg hlt (by omega), hat]
    exact ⟨b, hb, appliedBy_of_functionAt? hcall⟩
  · rw [findCode?_eq_none_iff] at hnone hnone'
    exact failsToApply_of_functionAt? (functionAt?_eq_none (by omega))

/-- Of two functions, the last one is applied by the codes 1 and -1, and none by the code 2. -/
theorem calls_by_code_two :
    ∃ table builtins, ofList [("abs", 1), ("vec3d", 3)] = .ok table ∧
      table.builtins = .ok builtins ∧
      (table.findCode? 1 = some ⟨"vec3d", 1, 3⟩ ∧ table.find? "vec3d" = some ⟨"vec3d", 1, 3⟩ ∧
        Builtin.vec3d.AppliedBy builtins 1) ∧
      (table.findCode? (-1) = none ∧ Builtin.vec3d.AppliedBy builtins (-1)) ∧
      (table.findCode? 2 = none ∧ FailsToApply builtins 2) := by
  let table : FunctionTable := ⟨[⟨"abs", 0, 1⟩, ⟨"vec3d", 1, 3⟩]⟩
  have htable : ofList [("abs", 1), ("vec3d", 3)] = .ok table := by decide +kernel
  have hbuiltins : table.builtins = .ok [.abs, .vec3d] := rfl
  have hname : Builtin.ofName? "vec3d" = some .vec3d := Builtin.ofName?_name .vec3d
  obtain ⟨_, hfind, b, hb, happlied⟩ :=
    (calls_by_code htable hbuiltins 1).1 ⟨"vec3d", 1, 3⟩ rfl
  obtain ⟨b', hb', happlied'⟩ :=
    ((calls_by_code htable hbuiltins (-1)).2 rfl).1 ⟨"vec3d", 1, 3⟩ rfl
  obtain rfl : b = .vec3d := Option.some.inj (hb.symm.trans hname)
  obtain rfl : b' = .vec3d := Option.some.inj (hb'.symm.trans hname)
  have hfails := ((calls_by_code htable hbuiltins 2).2 rfl).2 rfl
  exact ⟨table, _, htable, hbuiltins, ⟨rfl, hfind, happlied⟩, ⟨rfl, happlied'⟩, rfl, hfails⟩

/-- A code that the table does not know can be called: the code -1 of the last function. -/
theorem not_forall_unknown_code_fails :
    ¬ ∀ (entries : List (String × Int)) (table : FunctionTable) (builtins : List Builtin)
      (code : Int), ofList entries = .ok table → table.builtins = .ok builtins →
        table.findCode? code = none → ∀ (arity : Int) (stack : Stack) (env : Environment),
          ∃ fault, (Operation.call code arity).step builtins stack env = .error fault := by
  intro hall
  obtain ⟨fault, hfault⟩ := hall [("vec3d", 3)] ⟨[⟨"vec3d", 0, 3⟩]⟩ [.vec3d] (-1)
    (by decide +kernel) rfl rfl 3 [.scalar 3, .scalar 2, .scalar 1] .empty
  cases hfault

end FunctionTable

end Reckoner
