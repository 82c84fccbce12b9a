import Reckoner.Problem.Check
import Reckoner.Proofs.Expr.Balance
import Reckoner.Proofs.Program.Signs

/-!
# Programs in which every sign is an instruction

`Scope.compilePlain` compiles a text as `Scope.compile` does, but saves no signs.  The code of an
expression has the signs of its plain code worked in (`Expr.WrittenIn.worked`), so that
`Signed.run_foldedAll` compares the runs of the two programs: `Scope.run_compilePlain`.
-/

set_option autoImplicit false

namespace Reckoner

/-! ## Expressions -/

theorem negateCode_append (position : Nat) (c : Code) {d : Code} (h : d ≠ []) :
    negateCode position (c ++ d) = c ++ negateCode position d := by
  obtain ⟨init, ⟨operation, origin⟩, rfl⟩ := (List.eq_nil_or_concat' d).resolve_left h
  rw [← List.append_assoc]
  by_cases hconstant : ∃ value, operation = .constant value
  · obtain ⟨value, rfl⟩ := hconstant
    rw [negateCode_constant, negateCode_constant, List.append_assoc]
  · by_cases hnegate : operation = .negate
    · subst hnegate
      rw [negateCode_negate, negateCode_negate]
    · have hother : ∀ value, operation ≠ .constant value := fun value hv ↦ hconstant ⟨value, hv⟩
      rw [negateCode_other position (c ++ init) origin hother hnegate,
        negateCode_other position init origin hother hnegate]
      simp only [List.append_assoc]

theorem Signed.folded_ne_nil (g : Signed) : g.folded ≠ [] := by
  obtain ⟨⟨operation, origin⟩, signs, hnegate, _⟩ := g
  by_cases h : ∃ v, operation = .constant v
  · obtain ⟨v, rfl⟩ := h
    obtain ⟨origin', hfold⟩ := foldSigns_constant v origin signs
    rw [folded, hfold]
    exact List.cons_ne_nil _ _
  · rw [folded, foldSigns_other (fun v hv ↦ h ⟨v, hv⟩) hnegate]
    exact List.cons_ne_nil _ _

/-- Code is other code with its signs worked in. -/
def Code.Worked (plain code : Code) : Prop :=
  ∃ gs : List Signed, plain = Signed.plainAll gs ∧ code = Signed.foldedAll gs

theorem Code.Balanced.ne_nil {code : Code} {height : Nat} (h : Balanced code height) :
    code ≠ [] := by
  rintro rfl
  exact absurd h.effect (by simp)

namespace Code.Worked

variable {plain code plain' code' : Code}

theorem nil : Worked [] [] := ⟨[], rfl, rfl⟩

theorem append (h : Worked plain code) (h' : Worked plain' code') :
    Worked (plain ++ plain') (code ++ code') := by
  obtain ⟨gs, rfl, rfl⟩ := h
  obtain ⟨gs', rfl, rfl⟩ := h'
  exact ⟨gs ++ gs', List.flatMap_append.symm, List.flatMap_append.symm⟩

theorem singleton {operation : Operation} (position : Int) (hsign : operation ≠ .negate)
    (hconstant : ∀ v, operation = .constant v → v.negate = .ok v.opposite) :
    Worked [⟨operation, position⟩] [⟨operation, position⟩] :=
  ⟨[⟨⟨operation, position⟩, [], hsign, hconstant⟩], rfl, rfl⟩

/-- A sign joins the row at the end. -/
theorem negate (h : Worked plain code) (hne : plain ≠ []) (position : Nat) :
    Worked (plain ++ [⟨.negate, position⟩]) (negateCode position code) := by
  obtain ⟨gs, rfl, rfl⟩ := h
  obtain ⟨init, g, rfl⟩ := (List.eq_nil_or_concat' gs).resolve_left (by rintro rfl; exact hne rfl)
  refine ⟨init ++ [⟨g.instruction, g.signs ++ [position], g.not_sign, g.constant⟩], ?_, ?_⟩
  · simp [Signed.plainAll, Signed.plain, signCode]
  · rw [Signed.foldedAll, Signed.foldedAll, List.flatMap_append, List.flatMap_append,
      List.flatMap_singleton, List.flatMap_singleton, negateCode_append _ _ g.folded_ne_nil]
    exact congrArg _ (foldSigns_concat _ _ _).symm

end Code.Worked

namespace Expr

variable {scope : Scope} {tokens : List Placed}

theorem plainCodeOfAll_eq_flatMap (es : List Expr) : plainCodeOfAll es = es.flatMap plainCode := by
  induction es with
  | nil => rfl
  | cons e es ih => rw [plainCodeOfAll, ih, List.flatMap_cons]

/-- Plain code does to the stack what code does. -/
theorem WrittenIn.balanced_plainCode {e : Expr} (h : e.WrittenIn scope tokens) :
    Code.Balanced e.plainCode e.height := by
  induction h with
  | number => exact Code.balanced_push _ ⟨rfl, rfl⟩
  | name => exact Code.balanced_push _ ⟨rfl, rfl⟩
  | call _ _ length _ ih =>
    rw [plainCode, height, plainCodeOfAll_eq_flatMap, ← length]
    exact (balancedAll_flatMap ih).call _ _
  | group _ _ ih => exact ih
  | negate _ _ ih => exact ih.then_keep _ ⟨rfl, rfl⟩
  | binary _ _ _ ihl ihr => exact ihl.binary ihr _ _
  | assign _ _ ih => exact ih.then_keep _ ⟨rfl, rfl⟩

theorem worked_flatMap {es : List Expr} (h : ∀ e ∈ es, Code.Worked e.plainCode e.code) :
    Code.Worked (es.flatMap plainCode) (es.flatMap code) := by
  induction es with
  | nil => exact .nil
  | cons e es ih =>
    obtain ⟨he, hes⟩ := List.forall_mem_cons.1 h
    exact he.append (ih hes)

/-- **The code of an expression is its plain code with the signs worked in.** -/
theorem WrittenIn.worked {e : Expr} (h : e.WrittenIn scope tokens) :
    Code.Worked e.plainCode e.code := by
  induction h with
  | number =>
    refine .singleton _ (by simp) fun v hv ↦ ?_
    cases hv
    rfl
  | name => exact .singleton _ (by simp) (by simp)
  | call _ _ _ _ ih =>
    rw [plainCode, code, codeOfAll_eq_flatMap, plainCodeOfAll_eq_flatMap]
    exact (worked_flatMap ih).append (.singleton _ (by simp) (by simp))
  | group _ _ ih => exact ih
  | negate _ written ih => exact ih.negate written.balanced_plainCode.ne_nil _
  | binary _ _ _ ihl ihr => exact (ihl.append ihr).append (.singleton _ (by simp) (by simp))
  | assign _ _ ih => exact ih.append (.singleton _ (by simp) (by simp))

end Expr

namespace Sequence

variable {scope : Scope} {tokens : List Placed}

theorem plainCode_cons (f : Finished) (fs : List Finished) (last : Expr) :
    plainCode ⟨f :: fs, last⟩ =
      f.statement.plainCode ++ [⟨.discard, f.comma⟩] ++ plainCode ⟨fs, last⟩ := by
  simp [plainCode]

theorem WrittenIn.balanced_plainCode {s : Sequence} (h : s.WrittenIn scope tokens) :
    Code.Balanced s.plainCode s.height := by
  obtain ⟨finished, last⟩ := s
  obtain ⟨hfinished, hlast⟩ := h
  induction finished with
  | nil => exact hlast.balanced_plainCode
  | cons f fs ih =>
    obtain ⟨⟨hf, _⟩, hfs⟩ := List.forall_mem_cons.1 hfinished
    rw [plainCode_cons, height_cons]
    exact hf.balanced_plainCode.discard (ih hfs hlast) _

theorem WrittenIn.worked {s : Sequence} (h : s.WrittenIn scope tokens) :
    Code.Worked s.plainCode s.code := by
  obtain ⟨finished, last⟩ := s
  obtain ⟨hfinished, hlast⟩ := h
  induction finished with
  | nil => exact hlast.worked
  | cons f fs ih =>
    obtain ⟨⟨hf, _⟩, hfs⟩ := List.forall_mem_cons.1 hfinished
    rw [plainCode_cons, code_cons]
    exact (hf.worked.append (.singleton _ (by simp) (by simp))).append (ih hfs hlast)

/-- The program of a sequence in which every sign is an instruction. -/
def plainProgram (s : Sequence) (source : String) : Program := ⟨source, s.plainCode, s.height⟩

end Sequence

/-! ## Programs -/

namespace Scope

variable {scope : Scope} {text : String} {p : Program}

/-- Compiles a text so that every sign is an instruction.  Of a text without a structural problem
this is all that it changes, since there an assignment is to a name, and no sign belongs to it. -/
def compilePlain (scope : Scope) (text : String) : Except CompileError Program :=
  (scope.read text).map (·.plainProgram text)

theorem exists_of_map_compilePlain {α : Type} {f : Program → α} {a : α}
    (h : (scope.compilePlain text).map f = .ok a) :
    ∃ q, scope.compilePlain text = .ok q ∧ f q = a := by
  cases hcompile : scope.compilePlain text with
  | ok q =>
    rw [hcompile] at h
    exact ⟨q, rfl, Except.ok.inj h⟩
  | error e =>
    rw [hcompile] at h
    cases h

/-- **Working signs into code shows in one case only.**  A text that compiles also compiles without
that, to the same instructions with their signs behind them.  On every environment the two programs
come to the same value or fault and leave behind the same environment, unless the plain one halts at
a sign before a text.  If the number of signs that follow each other there is odd, the program halts
as well, with the same cause and the same environment, at the last of the signs; if it is even, the
program goes on with the text, as though the signs were not there. -/
theorem run_compilePlain (hcompile : scope.compile text = .ok p) :
    ∃ q gs, scope.compilePlain text = .ok q ∧ q.code = Signed.plainAll gs ∧
      p.code = Signed.foldedAll gs ∧ ∀ (functions : List Builtin) (env : Environment),
        p.run functions env = q.run functions env ∨
          ∃ before g after s stack env',
            Signed.Halt functions gs [] env before g after s stack env' ∧
            (∃ first, g.signs.head? = some first ∧ q.run functions env =
              (.error (.eval (.noNegative .text) (some first)), env')) ∧
            (Odd g.signs.length → ∃ last, g.signs.getLast? = some last ∧ p.run functions env =
              (.error (.eval (.noNegative .text) (some last)), env')) ∧
            (Even g.signs.length → p.run functions env =
              Code.run functions (Signed.foldedAll after) (.text s :: stack) env') := by
  obtain ⟨sequence, hread, rfl⟩ := read_of_compile hcompile
  have hwritten := written_of_read hread
  obtain ⟨gs, hplain, hfolded⟩ := hwritten.worked
  have hsupplied : Code.Supplied (Signed.plainAll gs) 0 :=
    hplain ▸ hwritten.balanced_plainCode.supplied le_rfl
  refine ⟨sequence.plainProgram text, gs, by rw [compilePlain, hread]; rfl, hplain, hfolded,
    fun functions env ↦ ?_⟩
  rw [Program.run, Program.run, Sequence.program, Sequence.plainProgram, hplain, hfolded]
  exact Signed.run_foldedAll gs hsupplied

/-- Three signs before a text: both programs halt, and not at the same sign. -/
theorem run_compilePlain_three :
    ∃ p gs before g after s stack env,
      compile ⟨.standard, Environment.empty.create "t" (.text "abc"), 64⟩ "-(-(-t))" = .ok p ∧
      p.code = Signed.foldedAll gs ∧
      Signed.Halt Builtin.all gs [] (Environment.empty.create "t" (.text "abc"))
        before g after s stack env := by
  have hcompile : (compile ⟨.standard, Environment.empty.create "t" (.text "abc"), 64⟩
      "-(-(-t))").map (fun p ↦ (p.run Builtin.all (Environment.empty.create "t" (.text "abc"))).1) =
        .ok (.error (.eval (.noNegative .text) (some 0))) := by decide +kernel
  have hplain : (compilePlain ⟨.standard, Environment.empty.create "t" (.text "abc"), 64⟩
      "-(-(-t))").map (fun q ↦ (q.run Builtin.all (Environment.empty.create "t" (.text "abc"))).1) =
        .ok (.error (.eval (.noNegative .text) (some 4))) := by decide +kernel
  obtain ⟨p, hp, hrun⟩ := exists_of_map_compile hcompile
  obtain ⟨q, gs, hq, _, hcode, hruns⟩ := run_compilePlain hp
  obtain ⟨q', hq', hrun'⟩ := exists_of_map_compilePlain hplain
  obtain rfl : q' = q := Except.ok.inj (hq'.symm.trans hq)
  rcases hruns Builtin.all (Environment.empty.create "t" (.text "abc")) with
    heq | ⟨before, g, after, s, stack, env, hhalt, _⟩
  · rw [← heq, hrun] at hrun'
    cases hrun'
  · exact ⟨p, gs, before, g, after, s, stack, env, hp, hcode, hhalt⟩

/-- Two signs before a text: the plain program fails, and the other one comes to the text. -/
theorem run_ne_run_compilePlain :
    ∃ p q,
      problem? ⟨.standard, Environment.empty.create "t" (.text "abc"), 64⟩ "-(-t)" = none ∧
      compile ⟨.standard, Environment.empty.create "t" (.text "abc"), 64⟩ "-(-t)" = .ok p ∧
      compilePlain ⟨.standard, Environment.empty.create "t" (.text "abc"), 64⟩ "-(-t)" = .ok q ∧
      (p.run Builtin.all (Environment.empty.create "t" (.text "abc"))).1 = .ok (.text "abc") ∧
      (q.run Builtin.all (Environment.empty.create "t" (.text "abc"))).1 =
        .error (.eval (.noNegative .text) (some 2)) := by
  have hcompile : (compile ⟨.standard, Environment.empty.create "t" (.text "abc"), 64⟩
      "-(-t)").map (fun p ↦ (p.run Builtin.all (Environment.empty.create "t" (.text "abc"))).1) =
        .ok (.ok (.text "abc")) := by decide +kernel
  have hplain : (compilePlain ⟨.standard, Environment.empty.create "t" (.text "abc"), 64⟩
      "-(-t)").map (fun q ↦ (q.run Builtin.all (Environment.empty.create "t" (.text "abc"))).1) =
        .ok (.error (.eval (.noNegative .text) (some 2))) := by decide +kernel
  obtain ⟨p, hp, hrun⟩ := exists_of_map_compile hcompile
  obtain ⟨q, hq, hrun'⟩ := exists_of_map_compilePlain hplain
  exact ⟨p, q, by decide +kernel, hp, hq, hrun, hrun'⟩

end Scope

end Reckoner
