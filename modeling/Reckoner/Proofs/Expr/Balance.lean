import Reckoner.Proofs.Expr.Origin
import Reckoner.Proofs.Program.Depth
import Mathlib.Algebra.Order.Ring.Int
import Mathlib.Data.Nat.Cast.Order.Ring

/-!
# Compiled code and the stack

The code of an expression pushes one value, whatever the stack holds before, and needs as many
places there as `Expr.height` tells.  `Code.Balanced` says so; it is shown once for each kind of
expression, and a sign is the only kind that changes code which is already there.

`Scope.stack_discipline` is what follows for programs.  It does not ask whether the text has passed
the structural check: that a call has all its arguments is the reader's doing.
-/

set_option autoImplicit false

namespace Reckoner

/-- Code that pushes one value and has at most `height` values on top of what was there. -/
structure Code.Balanced (code : Code) (height : Nat) : Prop where
  /-- One value is pushed. -/
  effect : Code.effect code = 1
  /-- Nothing is taken from below. -/
  supplied : ∀ {depth : Int}, 0 ≤ depth → Code.Supplied code depth
  /-- The greatest depth. -/
  peak : ∀ depth, Code.peak code depth = depth + height

namespace Code

theorem balanced_push {operation : Operation} (position : Int)
    (h : operation.operands = 0 ∧ operation.effect = 1) :
    Balanced [⟨operation, position⟩] 1 :=
  ⟨by simp [h.2], fun hdepth ↦ by simpa [h.1] using hdepth,
    fun depth ↦ by simp [h.2]⟩

/-- What follows code that pushes a value and leaves the depth as it is. -/
theorem Balanced.then_keep {code : Code} {height : Nat} (h : Balanced code height)
    {operation : Operation} (position : Int)
    (hkeep : operation.operands = 1 ∧ operation.effect = 0) :
    Balanced (code ++ [⟨operation, position⟩]) height := by
  refine ⟨by simp [h.effect, hkeep.2], fun hdepth ↦ ?_, fun depth ↦ ?_⟩
  · rw [supplied_append, h.effect]
    refine ⟨h.supplied hdepth, ?_, supplied_nil _⟩
    rw [hkeep.1]
    omega
  · have hle := effect_le_peak code depth
    rw [h.effect, h.peak] at hle
    rw [peak_append, h.peak, h.effect]
    simpa [hkeep.2] using hle

/-- A sign behind code does not change what the code does to the stack, whether it is worked into
the last instruction or not. -/
theorem Balanced.negate {code : Code} {height : Nat} (h : Balanced code height) (position : Nat) :
    Balanced (negateCode position code) height := by
  obtain rfl | ⟨init, ⟨operation, origin⟩, rfl⟩ := List.eq_nil_or_concat' code
  · exact absurd h.effect (by simp)
  by_cases hconstant : ∃ value, operation = .constant value
  · obtain ⟨value, rfl⟩ := hconstant
    rw [negateCode_constant]
    refine ⟨by simpa [Operation.effect] using h.effect, fun hdepth ↦ ?_, fun depth ↦ ?_⟩
    · simpa [Operation.operands] using h.supplied hdepth
    · simpa [Operation.effect] using h.peak depth
  · by_cases hnegate : operation = .negate
    · subst hnegate
      rw [negateCode_negate]
      refine ⟨by simpa [Operation.effect] using h.effect, fun hdepth ↦ ?_, fun depth ↦ ?_⟩
      · exact (supplied_append.1 (h.supplied hdepth)).1
      · have hle := effect_le_peak init depth
        rw [← h.peak depth]
        simp [Operation.effect, hle]
    · rw [negateCode_other position init origin (fun value hvalue ↦ hconstant ⟨value, hvalue⟩)
        hnegate]
      exact h.then_keep position ⟨rfl, rfl⟩

theorem Balanced.binary {left right : Code} {m n : Nat} (hl : Balanced left m)
    (hr : Balanced right n) (op : Operator) (position : Int) :
    Balanced (left ++ right ++ [⟨.binary op, position⟩]) (max m (n + 1)) := by
  refine ⟨by simp [hl.effect, hr.effect, Operation.effect], fun {depth} hdepth ↦ ?_,
    fun depth ↦ ?_⟩
  · rw [supplied_append, supplied_append, effect_append, hl.effect, hr.effect]
    refine ⟨⟨hl.supplied hdepth, hr.supplied (by omega)⟩, ?_, supplied_nil _⟩
    simp only [Operation.operands]
    omega
  · have hle := effect_le_peak right (depth + 1)
    rw [hr.effect, hr.peak] at hle
    rw [peak_append, peak_append, effect_append, hl.effect, hr.effect, hl.peak, hr.peak]
    simp only [peak_cons, peak_nil, Operation.effect, Nat.cast_max, Nat.cast_add, Nat.cast_one]
    omega

/-- A value that is dropped leaves the stack to what follows as it was. -/
theorem Balanced.discard {code rest : Code} {m n : Nat} (h : Balanced code m)
    (hrest : Balanced rest n) (position : Int) :
    Balanced (code ++ [⟨.discard, position⟩] ++ rest) (max m n) := by
  refine ⟨by simp [h.effect, hrest.effect, Operation.effect], fun {depth} hdepth ↦ ?_,
    fun depth ↦ ?_⟩
  · rw [supplied_append, supplied_append, effect_append, h.effect]
    refine ⟨⟨h.supplied hdepth, ?_, supplied_nil _⟩, hrest.supplied ?_⟩
    · simp only [Operation.operands]
      omega
    · simpa [Operation.effect] using hdepth
  · have hle := effect_le_peak code depth
    rw [h.effect, h.peak] at hle
    have hle' := effect_le_peak rest depth
    rw [hrest.effect, hrest.peak] at hle'
    rw [peak_append, peak_append, effect_append, h.effect, h.peak]
    simp only [effect_cons, effect_nil, peak_cons, peak_nil, Operation.effect, add_zero,
      add_neg_cancel, hrest.peak, Nat.cast_max]
    omega

/-- Code that pushes several values, one after the other. -/
structure BalancedAll (code : Code) (count height : Nat) : Prop where
  /-- So many values are pushed. -/
  effect : Code.effect code = count
  /-- Nothing is taken from below. -/
  supplied : ∀ {depth : Int}, 0 ≤ depth → Code.Supplied code depth
  /-- The greatest depth. -/
  peak : ∀ depth, Code.peak code depth = depth + height

theorem BalancedAll.nil : BalancedAll [] 0 0 :=
  ⟨rfl, fun _ ↦ supplied_nil _, fun depth ↦ by simp⟩

theorem BalancedAll.cons {code rest : Code} {count m n : Nat} (h : Balanced code m)
    (hrest : BalancedAll rest count n) :
    BalancedAll (code ++ rest) (count + 1) (max m (n + 1)) := by
  refine ⟨by simp [h.effect, hrest.effect, add_comm], fun hdepth ↦ ?_, fun depth ↦ ?_⟩
  · rw [supplied_append, h.effect]
    exact ⟨h.supplied hdepth, hrest.supplied (by omega)⟩
  · rw [peak_append, h.effect, h.peak, hrest.peak, Nat.cast_max, Nat.cast_add]
    omega

/-- A call replaces its arguments by one value. -/
theorem BalancedAll.call {arguments : Code} {count height : Nat}
    (h : BalancedAll arguments count height) (code : Int) (position : Int) :
    Balanced (arguments ++ [⟨.call code count, position⟩]) (max 1 height) := by
  refine ⟨by simp [h.effect, Operation.effect], fun hdepth ↦ ?_, fun depth ↦ ?_⟩
  · rw [supplied_append, h.effect]
    refine ⟨h.supplied hdepth, ?_, supplied_nil _⟩
    simp only [Operation.operands]
    omega
  · have hle := effect_le_peak arguments depth
    rw [h.effect, h.peak] at hle
    rw [peak_append, h.effect, h.peak]
    simp only [peak_cons, peak_nil, Operation.effect, Nat.cast_max, Nat.cast_one]
    omega

end Code

namespace Expr

variable {scope : Scope} {tokens : List Placed}

theorem codeOfAll_eq_flatMap (es : List Expr) : codeOfAll es = es.flatMap code := by
  induction es with
  | nil => rfl
  | cons e es ih => rw [codeOfAll, ih, List.flatMap_cons]

theorem balancedAll_flatMap {f : Expr → Code} {es : List Expr}
    (h : ∀ e ∈ es, Code.Balanced (f e) e.height) :
    Code.BalancedAll (es.flatMap f) es.length (heightOfAll es) := by
  induction es with
  | nil => exact .nil
  | cons e es ih =>
    obtain ⟨he, hes⟩ := List.forall_mem_cons.1 h
    rw [List.flatMap_cons, heightOfAll, List.length_cons]
    exact .cons he (ih hes)

/-- **The code of an expression that was read pushes one value.** -/
theorem WrittenIn.balanced {e : Expr} (h : e.WrittenIn scope tokens) :
    Code.Balanced e.code e.height := by
  induction h with
  | number => exact Code.balanced_push _ ⟨rfl, rfl⟩
  | name => exact Code.balanced_push _ ⟨rfl, rfl⟩
  | call _ _ length _ ih =>
    rw [code, height, codeOfAll_eq_flatMap, ← length]
    exact (balancedAll_flatMap ih).call _ _
  | group _ _ ih => exact ih
  | negate _ _ ih => exact ih.negate _
  | binary _ _ _ ihl ihr => exact ihl.binary ihr _ _
  | assign _ _ ih => exact ih.then_keep _ ⟨rfl, rfl⟩

end Expr

namespace Sequence

theorem code_cons (f : Finished) (fs : List Finished) (last : Expr) :
    code ⟨f :: fs, last⟩ = f.statement.code ++ [⟨.discard, f.comma⟩] ++ code ⟨fs, last⟩ := by
  simp [code]

theorem height_cons (f : Finished) (fs : List Finished) (last : Expr) :
    height ⟨f :: fs, last⟩ = max f.statement.height (height ⟨fs, last⟩) := by
  have h (m n : Nat) : fs.foldl (fun n f ↦ max n f.statement.height) (max m n) =
      max m (fs.foldl (fun n f ↦ max n f.statement.height) n) := by
    induction fs generalizing n with
    | nil => rfl
    | cons g gs ih => rw [List.foldl_cons, max_assoc, ih, List.foldl_cons]
  rw [height, height, List.foldl_cons, max_comm last.height, h]

/-- The code of statements pushes the value of the last one and drops the others. -/
theorem WrittenIn.balanced {scope : Scope} {tokens : List Placed} {s : Sequence}
    (h : s.WrittenIn scope tokens) : Code.Balanced s.code s.height := by
  obtain ⟨finished, last⟩ := s
  obtain ⟨hfinished, hlast⟩ := h
  induction finished with
  | nil => exact hlast.balanced
  | cons f fs ih =>
    obtain ⟨⟨hf, _⟩, hfs⟩ := List.forall_mem_cons.1 hfinished
    rw [code_cons, height_cons]
    exact hf.balanced.discard (ih hfs hlast) _

end Sequence

/-! ## Programs -/

namespace Scope

/-- The code of a program that was compiled pushes one value, and its greatest depth is noted. -/
theorem balanced_of_compile {scope : Scope} {text : String} {p : Program}
    (h : scope.compile text = .ok p) : Code.Balanced p.code p.maxStack := by
  obtain ⟨sequence, hread, rfl⟩ := read_of_compile h
  exact (written_of_read hread).balanced

section

variable {scope : Scope} {text : String} {p : Program} {functions : List Builtin} {k : Nat}
  {stack : Stack} {env env' : Environment}

/-- The depth of the stack is the sum of the effects of the instructions so far. -/
theorem length_of_compile (h : scope.compile text = .ok p)
    (hexec : Code.exec functions (p.code.take k) [] env = (.ok stack, env')) :
    (stack.length : Int) = Code.effect (p.code.take k) := by
  have hsupplied : Code.Supplied p.code 0 := (balanced_of_compile h).supplied le_rfl
  simpa using Code.length_exec (hsupplied.take k) hexec

/-- The operands of the next instruction are on the stack. -/
theorem operands_of_compile (h : scope.compile text = .ok p) {i : Instruction}
    (hi : p.code[k]? = some i)
    (hexec : Code.exec functions (p.code.take k) [] env = (.ok stack, env')) :
    0 ≤ i.operation.operands ∧ i.operation.operands ≤ (stack.length : Int) := by
  have hsupplied : Code.Supplied p.code 0 := (balanced_of_compile h).supplied le_rfl
  have hoperands := hsupplied.operands hi
  rwa [zero_add, ← length_of_compile h hexec] at hoperands

/-- A complete execution leaves one value. -/
theorem exists_value_of_compile (h : scope.compile text = .ok p)
    (hexec : Code.exec functions p.code [] env = (.ok stack, env')) : ∃ value, stack = [value] := by
  have hone := length_of_compile h (k := p.code.length) (by rwa [List.take_length])
  rw [List.take_length, (balanced_of_compile h).effect] at hone
  exact List.length_eq_one_iff.1 (by exact_mod_cast hone)

end

/-- A run of a compiled program completes all instructions and comes to the one value that is left,
or it completes those before an instruction that fails, and fails with it. -/
theorem run_stops {scope : Scope} {text : String} {p : Program} (h : scope.compile text = .ok p)
    (functions : List Builtin) (env : Environment) :
    ∃ k stack env', p.code.StopsAfter functions [] env k stack env' ∧
      ((∃ value, k = p.code.length ∧ stack = [value] ∧ p.run functions env = (.ok value, env')) ∨
        ∃ i fault, p.code[k]? = some i ∧ i.exec functions stack env' = (.error fault, env') ∧
          p.run functions env = (.error fault, env')) := by
  obtain ⟨k, stack, env', hstops⟩ := Code.exists_stopsAfter functions p.code [] env
  refine ⟨k, stack, env', hstops, ?_⟩
  rw [Program.run, Code.run_eq_exec]
  rcases hstops.exec_eq with ⟨hnone, hexec⟩ | ⟨i, fault, hi, hfault, hexec⟩
  · obtain rfl : k = p.code.length :=
      Nat.le_antisymm hstops.le_length (List.getElem?_eq_none_iff.1 hnone)
    obtain ⟨value, rfl⟩ := exists_value_of_compile h hexec
    exact .inl ⟨value, rfl, rfl, by rw [hexec]; rfl⟩
  · exact .inr ⟨i, fault, hi, hfault, by rw [hexec]; rfl⟩

/-- **The stack discipline of compiled code**, for any text that compiles, whether it was checked or
not.  Whenever an instruction is about to be executed, the depth of the stack is the sum of the
effects of the instructions before it, and the operands of the instruction are there.  A run in
which no instruction fails leaves exactly one value, and that is its result.  The depth that the
program notes is the greatest of those sums, and the greatest depth in every such run. -/
theorem stack_discipline {scope : Scope} {text : String} {p : Program}
    (h : scope.compile text = .ok p) (functions : List Builtin) (env : Environment) :
    (∀ k i, p.code[k]? = some i → ∀ stack env',
      Code.exec functions (p.code.take k) [] env = (.ok stack, env') →
        (stack.length : Int) = Code.effect (p.code.take k) ∧
          0 ≤ i.operation.operands ∧ i.operation.operands ≤ (stack.length : Int)) ∧
    (∀ stack env', Code.exec functions p.code [] env = (.ok stack, env') →
      ∃ value, stack = [value] ∧ p.run functions env = (.ok value, env')) ∧
    IsGreatest {d : Int | ∃ k ≤ p.code.length, d = Code.effect (p.code.take k)} p.maxStack ∧
    ∀ stack env', Code.exec functions p.code [] env = (.ok stack, env') →
      IsGreatest {d : Nat | ∃ k ≤ p.code.length, ∃ stack env',
        Code.exec functions (p.code.take k) [] env = (.ok stack, env') ∧ d = stack.length}
        p.maxStack := by
  have hbalanced := balanced_of_compile h
  have hgreatest := Code.isGreatest_peak p.code
  rw [hbalanced.peak, zero_add] at hgreatest
  refine ⟨?_, ?_, hgreatest, ?_⟩
  · intro k i hi stack env' hexec
    exact ⟨length_of_compile h hexec, operands_of_compile h hi hexec⟩
  · intro stack env' hexec
    have hone := length_of_compile h (k := p.code.length) (by rwa [List.take_length])
    rw [List.take_length, hbalanced.effect] at hone
    obtain ⟨value, rfl⟩ := List.length_eq_one_iff.1 (by exact_mod_cast hone)
    exact ⟨value, rfl, by rw [Program.run, Code.run_eq_exec, hexec]; rfl⟩
  · intro stack env' hexec
    -- In a complete run every beginning of the code succeeds, so each sum is the depth of a stack.
    have hbeginning (k : Nat) : ∃ stack env',
        Code.exec functions (p.code.take k) [] env = (.ok stack, env') := by
      rw [← List.take_append_drop k p.code, Code.exec_append] at hexec
      obtain ⟨stack, env', hbegin, _⟩ := Outcome.andThen_eq_ok hexec
      exact ⟨stack, env', hbegin⟩
    refine ⟨?_, ?_⟩
    · obtain ⟨k, hk, heq⟩ := hgreatest.1
      obtain ⟨stack, env', hbegin⟩ := hbeginning k
      refine ⟨k, hk, stack, env', hbegin, ?_⟩
      rw [← length_of_compile h hbegin] at heq
      exact_mod_cast heq
    · rintro d ⟨k, hk, stack, env', hbegin, rfl⟩
      have hle := hgreatest.2 ⟨k, hk, length_of_compile h hbegin⟩
      exact_mod_cast hle

/-- Three values are on the stack before the product of a sum is taken. -/
theorem stack_discipline_product :
    ∃ p, compile ⟨.standard, Environment.empty.create "x" (.text "a"), 64⟩ "x+x*x" = .ok p ∧
      IsGreatest {d : Int | ∃ k ≤ p.code.length, d = Code.effect (p.code.take k)} 3 := by
  have hcompile : (compile ⟨.standard, Environment.empty.create "x" (.text "a"), 64⟩
      "x+x*x").map (·.maxStack) = .ok 3 := by decide +kernel
  obtain ⟨p, hp, hmax⟩ := exists_of_map_compile hcompile
  have hgreatest := (stack_discipline hp [] .empty).2.2.1
  rw [hmax] at hgreatest
  exact ⟨p, hp, hgreatest⟩

end Scope

end Reckoner
