import Reckoner.Proofs.Expr.Balance
import Reckoner.Proofs.Program.Effect

/-!
# Which variables an expression reads

An expression reads the variables whose names stand in it, but for those that it only assigns to:
the target of an assignment is no operand, and a chain of assignments reads what its last value
reads.  `Expr.Reads` says so of the tree, and `Sequence.WrittenIn.loads_iff` is the link to the code,
which loads a slot exactly if the expression reads it.

`Scope.effect_of_run` is what follows for a run of a compiled program, whether it succeeds or fails:
which instructions were completed, and what has become of each variable.
-/

set_option autoImplicit false

namespace Reckoner

namespace Expr

variable {slot : Nat}

/-- An expression reads the variable of a slot. -/
inductive Reads (slot : Nat) : Expr → Prop
  | name {r : Reference} (h : r.slot = slot) : Reads slot (.name r)
  | call {f : Function} {position : Nat} {arguments : List Expr} {e : Expr} (mem : e ∈ arguments)
    (h : Reads slot e) : Reads slot (.call f position arguments)
  | group {position : Nat} {inner : Expr} (h : Reads slot inner) :
    Reads slot (.group position inner)
  | negate {position : Nat} {operand : Expr} (h : Reads slot operand) :
    Reads slot (.negate position operand)
  | left {op : Operator} {position : Nat} {left right : Expr} (h : Reads slot left) :
    Reads slot (.binary op position left right)
  | right {op : Operator} {position : Nat} {left right : Expr} (h : Reads slot right) :
    Reads slot (.binary op position left right)
  | assign {target : Reference} {value : Expr} (h : Reads slot value) :
    Reads slot (.assign target value)

@[simp] theorem reads_number {numeral : List Char} {position : Nat} :
    ¬ Reads slot (.number numeral position) := fun h ↦ nomatch h

@[simp] theorem reads_name {r : Reference} : Reads slot (.name r) ↔ r.slot = slot :=
  ⟨fun h ↦ by cases h; assumption, .name⟩

@[simp] theorem reads_call {f : Function} {position : Nat} {arguments : List Expr} :
    Reads slot (.call f position arguments) ↔ ∃ e ∈ arguments, e.Reads slot :=
  ⟨fun h ↦ by cases h with | call mem h => exact ⟨_, mem, h⟩, fun ⟨_, mem, h⟩ ↦ .call mem h⟩

@[simp] theorem reads_group {position : Nat} {inner : Expr} :
    Reads slot (.group position inner) ↔ inner.Reads slot :=
  ⟨fun h ↦ by cases h; assumption, .group⟩

@[simp] theorem reads_negate {position : Nat} {operand : Expr} :
    Reads slot (.negate position operand) ↔ operand.Reads slot :=
  ⟨fun h ↦ by cases h; assumption, .negate⟩

@[simp] theorem reads_binary {op : Operator} {position : Nat} {left right : Expr} :
    Reads slot (.binary op position left right) ↔ left.Reads slot ∨ right.Reads slot :=
  ⟨fun h ↦ by cases h with | left h => exact .inl h | right h => exact .inr h,
    fun h ↦ h.elim .left .right⟩

/-- An assignment reads what its value reads, whatever its target. -/
@[simp] theorem reads_assign {target : Reference} {value : Expr} :
    Reads slot (.assign target value) ↔ value.Reads slot :=
  ⟨fun h ↦ by cases h; assumption, .assign⟩

end Expr

/-- A sequence reads what its statements read. -/
def Sequence.Reads (slot : Nat) (s : Sequence) : Prop :=
  (∃ f ∈ s.finished, f.statement.Reads slot) ∨ s.last.Reads slot

/-- Code loads a slot. -/
def Code.Loads (code : Code) (slot : Nat) : Prop := ∃ i ∈ code, i.operation = .load slot

namespace Code

variable {slot : Nat}

@[simp] theorem loads_append {c d : Code} : (c ++ d).Loads slot ↔ c.Loads slot ∨ d.Loads slot := by
  simp only [Loads, List.mem_append, or_and_right, exists_or]

@[simp] theorem loads_singleton {i : Instruction} :
    Loads [i] slot ↔ i.operation = .load slot := by
  simp only [Loads, List.mem_singleton, exists_eq_left]

/-- A sign loads nothing, and the instruction that it takes away is no load. -/
theorem loads_negateCode {position : Nat} {code : Code} :
    (negateCode position code).Loads slot ↔ code.Loads slot := by
  obtain rfl | ⟨init, ⟨operation, origin⟩, rfl⟩ := List.eq_nil_or_concat' code
  · simp [negateCode, Loads]
  · by_cases hconstant : ∃ value, operation = .constant value
    · obtain ⟨value, rfl⟩ := hconstant
      rw [negateCode_constant]
      simp
    · by_cases hnegate : operation = .negate
      · subst hnegate
        rw [negateCode_negate]
        simp
      · rw [negateCode_other position init origin (fun value hvalue ↦ hconstant ⟨value, hvalue⟩)
          hnegate, loads_append, loads_singleton (i := ⟨.negate, position⟩)]
        simp

end Code

namespace Expr

variable {scope : Scope} {tokens : List Placed} {slot : Nat}

theorem loads_flatMap {es : List Expr} (h : ∀ e ∈ es, e.code.Loads slot ↔ e.Reads slot) :
    Code.Loads (es.flatMap code) slot ↔ ∃ e ∈ es, e.Reads slot := by
  induction es with
  | nil => simp [Code.Loads]
  | cons e es ih =>
    obtain ⟨he, hes⟩ := List.forall_mem_cons.1 h
    rw [List.flatMap_cons, Code.loads_append, he, ih hes, List.exists_mem_cons_iff]

/-- **The code of an expression loads what the expression reads.** -/
theorem WrittenIn.loads_iff {e : Expr} (h : e.WrittenIn scope tokens) :
    e.code.Loads slot ↔ e.Reads slot := by
  induction h with
  | number => simp [code]
  | name => simp [code]
  | call _ _ _ _ ih => simp [code, codeOfAll_eq_flatMap, loads_flatMap ih]
  | group _ _ ih => rw [code, ih, reads_group]
  | negate _ _ ih => rw [code, Code.loads_negateCode, ih, reads_negate]
  | binary _ _ _ ihl ihr => simp [code, Code.loads_append, ihl, ihr]
  | assign _ _ ih => simp [code, ih]

end Expr

/-- The code of a sequence loads what the sequence reads. -/
theorem Sequence.WrittenIn.loads_iff {scope : Scope} {tokens : List Placed} {s : Sequence}
    (h : s.WrittenIn scope tokens) {slot : Nat} : s.code.Loads slot ↔ s.Reads slot := by
  obtain ⟨finished, last⟩ := s
  obtain ⟨hfinished, hlast⟩ := h
  induction finished with
  | nil => simp [code, Reads, hlast.loads_iff]
  | cons f fs ih =>
    obtain ⟨⟨hf, _⟩, hfs⟩ := List.forall_mem_cons.1 hfinished
    have hrest := ih hfs
    rw [code_cons, Code.loads_append, Code.loads_append, hf.loads_iff, hrest hlast]
    simp [Reads, or_assoc]

namespace Scope

/-- **The exact effect of a run on the environment**, for any text that compiles and any
environment.  The run completes the instructions before the first one that fails, or all of them if
it comes to a value.  There are the same variables afterwards, with the same names and slots, and
the next slot is the same.  A variable has the value that was on top of the stack when a completed
instruction last stored to its slot, and its old value if none did; it is active exactly if it was
before or a completed instruction loaded its slot.  The code is that of the expression that the text
stands for, and a variable that this expression does not read, be it assigned to or not, is active
only if it was before. -/
theorem effect_of_run {scope : Scope} {text : String} {p : Program}
    (h : scope.compile text = .ok p) (functions : List Builtin) (env : Environment) :
    ∃ k stack env' sequence, p.code.StopsAfter functions [] env k stack env' ∧
      ((∃ value, k = p.code.length ∧ stack = [value] ∧ p.run functions env = (.ok value, env')) ∨
        ∃ i fault, p.code[k]? = some i ∧ i.exec functions stack env' = (.error fault, env') ∧
          p.run functions env = (.error fault, env')) ∧
      env'.nextSlot = env.nextSlot ∧
      scope.read text = .ok sequence ∧ p = sequence.program text ∧
      List.Forall₂ (fun v v' ↦ v.Became functions (p.code.take k) [] env v' ∧
        (¬ sequence.Reads v.slot → v'.active = v.active)) env.variables env'.variables := by
  obtain ⟨k, stack, env', hstops, hrun⟩ := run_stops h functions env
  obtain ⟨sequence, hread, hprogram⟩ := read_of_compile h
  refine ⟨k, stack, env', sequence, hstops, hrun, ?_, hread, hprogram, ?_⟩
  · have hnext := (Code.keys_exec functions (p.code.take k) [] env).2
    rwa [hstops.exec_take] at hnext
  · refine (Code.forall₂_became hstops.exec_take).imp fun v v' hbecame ↦ ⟨hbecame, fun hnot ↦ ?_⟩
    have hloads : ¬ Code.Loads (p.code.take k) v.slot := by
      rintro ⟨i, hi, hload⟩
      subst hprogram
      exact hnot ((written_of_read hread).loads_iff.1 ⟨i, List.take_subset _ _ hi, hload⟩)
    rw [Bool.eq_iff_iff, hbecame.active_iff]
    exact or_iff_left hloads

/-- A variable that is only assigned to is not active after a run that fails behind the
assignment. -/
theorem effect_of_run_assigned :
    ∃ p env', compile ⟨.standard, (Environment.empty.create "x" (.text "a")).create "y" (.text "b"),
        64⟩ "y=x,x+x" = .ok p ∧
      p.run [] ((Environment.empty.create "x" (.text "a")).create "y" (.text "b")) =
        (.error (.eval (.operands .add .text .text) (some 5)), env') ∧
      ∀ v ∈ env'.variables, v.name = "y" → v.active = false := by
  have hcompile : (compile ⟨.standard,
      (Environment.empty.create "x" (.text "a")).create "y" (.text "b"), 64⟩ "y=x,x+x").map
        (fun p ↦ (p.code.map (·.operation), (p.run [] ((Environment.empty.create "x"
          (.text "a")).create "y" (.text "b"))).1)) =
      .ok ([.load 0, .store 1, .discard, .load 0, .load 0, .binary .add],
        .error (.eval (.operands .add .text .text) (some 5))) := by decide +kernel
  obtain ⟨p, hp, hfacts⟩ := exists_of_map_compile hcompile
  obtain ⟨hcode, herror⟩ := Prod.mk.inj hfacts
  obtain ⟨k, stack, env', sequence, _, hrun, _, _, _, hall⟩ := effect_of_run hp []
    ((Environment.empty.create "x" (.text "a")).create "y" (.text "b"))
  have hfinal : p.run [] ((Environment.empty.create "x" (.text "a")).create "y" (.text "b")) =
      (.error (.eval (.operands .add .text .text) (some 5)), env') := by
    refine Prod.ext herror ?_
    rcases hrun with ⟨_, _, _, h⟩ | ⟨_, _, _, _, h⟩ <;> rw [h]
  refine ⟨p, env', hp, hfinal, fun v hv hname ↦ ?_⟩
  -- There are two variables, as before.
  have hpair : ((Environment.empty.create "x" (.text "a")).create "y" (.text "b")).variables =
      [⟨"x", .text "a", 0, false⟩, ⟨"y", .text "b", 1, false⟩] := rfl
  rw [hpair] at hall
  obtain ⟨x, _, ⟨hx, _⟩, htail, heq⟩ := List.forall₂_cons_left_iff.1 hall
  obtain ⟨y, _, ⟨hy, _⟩, hnil, rfl⟩ := List.forall₂_cons_left_iff.1 htail
  obtain rfl := List.forall₂_nil_left_iff.1 hnil
  rw [heq, List.mem_cons, List.mem_singleton] at hv
  obtain rfl | rfl := hv
  · exact absurd (hx.name_eq.symm.trans hname) (by decide)
  · refine Bool.eq_false_iff.2 fun hactive ↦ ?_
    rcases hy.active_iff.1 hactive with hbefore | ⟨i, hi, hload⟩
    · exact absurd hbefore (by decide)
    · have hmem := List.mem_map_of_mem (f := (·.operation)) (List.take_subset k p.code hi)
      rw [hcode, hload] at hmem
      exact absurd hmem (by decide)

end Scope

end Reckoner
