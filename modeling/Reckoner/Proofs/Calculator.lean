import Reckoner.Proofs.Environment.Access
import Reckoner.Proofs.Expr.Balance
import Reckoner.Session

/-!
# What is left of an expression that fails

A calculator that is given an expression checks it, compiles it, runs it, and may keep and convert
the result, and each of these can fail.  This file tells what is left then of the session that the
calculator belongs to.

* A text that is not compiled leaves nothing behind (`Calculator.parse_eq_error`).
* A run that fails leaves the program, and what the instructions did that were completed
  (`Calculator.evaluateHeld_of_compileText`).
* A result that is not converted is kept nevertheless (`Calculator.defineBy_of_compileText`).

`Session.steps_of_expression` puts this together for the three commands that read an expression.
-/

set_option autoImplicit false

namespace Reckoner

open Text

namespace Calculator

variable {c : Calculator} {expression : String}

/-- A text that is compiled is compiled without its blanks. -/
theorem compile_of_compileText {p : Program} (h : c.compileText expression = .ok p) :
    c.scope.compile (withoutBlanks expression) = .ok p := by
  simp only [compileText] at h
  split at h
  · cases h
  · cases hcompile : c.scope.compile (withoutBlanks expression) with
    | error e => rw [hcompile] at h; cases h
    | ok q => rw [hcompile] at h; cases h; rfl

/-- A program holds the text that it comes from, which is the expression without its blanks. -/
theorem source_of_compileText {p : Program} (h : c.compileText expression = .ok p) :
    p.source = withoutBlanks expression := by
  obtain ⟨sequence, _, rfl⟩ := Scope.read_of_compile (compile_of_compileText h)
  rfl

theorem parse_eq_error {e : Failure} (h : c.compileText expression = .error e) :
    c.parse expression = .error e := by
  rw [parse, h]
  rfl

theorem parse_eq_ok {p : Program} (h : c.compileText expression = .ok p) :
    c.parse expression = .ok (p, { c with held := some p }) := by
  rw [parse, h]
  rfl

/-- The calculator after a run of a program that it holds. -/
def holding (c : Calculator) (p : Program) (env : Environment) : Calculator :=
  { c with held := some p, «variables» := env }

theorem evaluateHeld_of_compileText {p : Program} (h : c.compileText expression = .ok p)
    {result : Except Fault Value} {env : Environment}
    (hrun : p.run c.builtins c.variables = (result, env)) :
    ({ c with held := some p } : Calculator).evaluateHeld =
      (result.mapError (.run · (some (withoutBlanks expression))), c.holding p env) := by
  rw [← source_of_compileText h]
  simp only [evaluateHeld, run, hrun, holding]

theorem evaluateText_of_compileText {p : Program} (h : c.compileText expression = .ok p)
    {result : Except Fault Value} {env : Environment}
    (hrun : p.run c.builtins c.variables = (result, env)) (form : Form) :
    c.evaluateText expression form =
      ((result.mapError (.run · (some (withoutBlanks expression)))).bind (convert · form),
        c.holding p env) := by
  simp only [evaluateText, parse_eq_ok h, evaluate, evaluateHeld_of_compileText h hrun]

theorem defineBy_of_compileText {p : Program} (h : c.compileText expression = .ok p)
    {result : Except Fault Value} {env : Environment}
    (hrun : p.run c.builtins c.variables = (result, env)) (name : String) (form : Form) :
    c.defineBy name expression form =
      match result with
      | .error fault => (.error (.run fault (some (withoutBlanks expression))), c.holding p env)
      | .ok value => (convert value form, c.holding p (env.put name value)) := by
  simp only [defineBy, parse_eq_ok h, evaluateHeld_of_compileText h hrun]
  cases result <;> rfl

/-- A value that does not have a form is reported as a failed conversion. -/
theorem report?_of_convert_error {value : Value} {form : Form} {e : Failure}
    (h : convert value form = .error e) : ∃ r, e.report? = some r ∧ r.kind = .typeConversion := by
  rw [convert] at h
  cases hform : value.toForm form with
  | ok d => rw [hform] at h; cases h
  | error cause =>
    rw [hform] at h
    cases h
    exact ⟨cause.report, rfl, by cases cause <;> rfl⟩

end Calculator

namespace Session

variable {s : Session} {on : Nat}

/-- A calculator that is put back as it was changes nothing. -/
theorem putBack_calculator (s : Session) (on : Nat) : s.putBack on (s.calculator on) = s := by
  have hheld : s.held.set on (s.held[on]?).join = s.held := by
    refine List.ext_getElem? fun i ↦ ?_
    rw [List.getElem?_set]
    split
    · next heq =>
      subst heq
      split
      · next hlt => rw [List.getElem?_eq_getElem hlt]; rfl
      · next hge => rw [List.getElem?_eq_none (Nat.not_lt.1 hge)]
    · rfl
  simp only [putBack, calculator, hheld]

theorem step_evaluateText (s : Session) (on : Nat) (expression : String) (form : Form) :
    s.step on (.evaluateText expression form) =
      s.takeOver on ((s.calculator on).evaluateText expression form) := rfl

theorem step_defineBy (s : Session) (on : Nat) (name expression : String) (form : Form) :
    s.step on (.defineBy name expression form) =
      s.takeOver on ((s.calculator on).defineBy name expression form) := rfl

/-- The session after a calculator has run a program that it now holds. -/
def holding (s : Session) (on : Nat) (p : Program) (env : Environment) : Session :=
  { s with held := s.held.set on (some p), «variables» := env }

/-- The three commands that read an expression, where the expression is not compiled. -/
theorem steps_of_compileText_error {expression : String} {e : Failure}
    (h : (s.calculator on).compileText expression = .error e) (name : String) (form : Form) :
    s.step on (.parse expression) = (.error e, s) ∧
      s.step on (.evaluateText expression form) = (.error e, s) ∧
      s.step on (.defineBy name expression form) = (.error e, s) := by
  have hparse := Calculator.parse_eq_error h
  refine ⟨?_, ?_, ?_⟩
  · simp only [step, hparse]
  · simp only [step_evaluateText, Calculator.evaluateText, hparse, takeOver, putBack_calculator]
    rfl
  · simp only [step_defineBy, Calculator.defineBy, hparse, takeOver, putBack_calculator]
    rfl

/-- **What is left of an expression that fails**, and of one that does not, in any session with any
number of calculators.

An expression that is not compiled leaves the session as it was.

If it is compiled and the run fails, the calculator holds the new program, and the variables are as
the instructions before the failing one have left them: nothing is kept under the name.  The failure
is the one of the run, and its report tells the expression without its blanks.

If the run comes to a value, the name has the value, whatever the expression has done to it: in the
slot and with the mark that it has after the run, or in the next slot if there is none.  All other
variables are as the run has left them, and so is the number of slots, but for the new one.  The
answer is the value in the form that was asked for, and if it does not have that form, the same is
left behind. -/
theorem steps_of_expression (s : Session) (on : Nat) (name expression : String) (form : Form) :
    (∀ e, (s.calculator on).compileText expression = .error e →
      s.step on (.parse expression) = (.error e, s) ∧
      s.step on (.evaluateText expression form) = (.error e, s) ∧
      s.step on (.defineBy name expression form) = (.error e, s)) ∧
    (∀ p fault env, (s.calculator on).compileText expression = .ok p →
      p.run s.builtins s.variables = (.error fault, env) →
      s.step on (.evaluateText expression form) =
        (.error (.run fault (some (withoutBlanks expression))), s.holding on p env) ∧
      s.step on (.defineBy name expression form) =
        (.error (.run fault (some (withoutBlanks expression))), s.holding on p env) ∧
      (Failure.run fault (some (withoutBlanks expression))).report? =
        fault.report?.map (fun r ↦ { r with expression := some (withoutBlanks expression) }) ∧
      ∃ k i stack, p.code[k]? = some i ∧
        Code.exec s.builtins (p.code.take k) [] s.variables = (.ok stack, env) ∧
        i.exec s.builtins stack env = (.error fault, env)) ∧
    ∀ p value env, (s.calculator on).compileText expression = .ok p →
      p.run s.builtins s.variables = (.ok value, env) →
      s.step on (.evaluateText expression form) =
        ((Calculator.convert value form).map .datum, s.holding on p env) ∧
      s.step on (.defineBy name expression form) =
        ((Calculator.convert value form).map .datum, s.holding on p (env.put name value)) ∧
      env.keys = s.variables.keys ∧ env.nextSlot = s.variables.nextSlot ∧
      (env.put name value).find? name =
        some ((env.find? name).elim ⟨name, value, env.nextSlot, false⟩ fun v ↦ { v with value }) ∧
      (∀ other, other ≠ name → (env.put name value).find? other = env.find? other) ∧
      ((env.put name value).nextSlot = if env.has name then env.nextSlot else env.nextSlot + 1) ∧
      ∀ e, Calculator.convert value form = .error e →
        ∃ r, e.report? = some r ∧ r.kind = .typeConversion := by
  refine ⟨fun e h ↦ steps_of_compileText_error h name form, fun p fault env h hrun ↦ ?_,
    fun p value env h hrun ↦ ?_⟩
  · have hrun' : p.run (s.calculator on).builtins (s.calculator on).variables =
        (.error fault, env) := hrun
    refine ⟨?_, ?_, ?_, ?_⟩
    · rw [step_evaluateText, Calculator.evaluateText_of_compileText h hrun']
      rfl
    · rw [step_defineBy, Calculator.defineBy_of_compileText h hrun']
      rfl
    · cases fault <;> rfl
    · obtain ⟨k, stack, env', hstops, hresult⟩ :=
        Scope.run_stops (Calculator.compile_of_compileText h) s.builtins s.variables
      rcases hresult with ⟨_, _, _, hvalue⟩ | ⟨i, fault', hi, hfail, herror⟩
      · rw [hrun] at hvalue
        cases hvalue
      · rw [hrun] at herror
        cases herror
        exact ⟨k, i, stack, hi, hstops.exec_take, hfail⟩
  · have hrun' : p.run (s.calculator on).builtins (s.calculator on).variables =
        (.ok value, env) := hrun
    have hkeys := p.keys_run s.builtins s.variables
    rw [hrun] at hkeys
    refine ⟨?_, ?_, hkeys.1, hkeys.2, env.find?_put_self name value,
      fun other hne ↦ env.find?_put_of_ne value hne, env.nextSlot_put name value,
      fun _ ↦ Calculator.report?_of_convert_error⟩
    · rw [step_evaluateText, Calculator.evaluateText_of_compileText h hrun']
      rfl
    · rw [step_defineBy, Calculator.defineBy_of_compileText h hrun']
      rfl

/-- A variable `x` is defined by three expressions: one that is not compiled, one that fails after it
has assigned to `x`, and one that comes to a text where a number is asked for. -/
theorem steps_of_expression_text :
    let env := (Environment.empty.create "x" (.text "a")).create "y" (.text "b")
    let s := start .standard Builtin.all 64 env 1
    (∃ e, s.step 0 (.defineBy "x" "x =" .real) = (.error e, s)) ∧
    (∃ p left, s.step 0 (.defineBy "x" "x = y, x + x" .real) =
        (.error (.run (.eval (.operands .add .text .text) (some 5)) (some "x=y,x+x")),
          s.holding 0 p left)) ∧
    ∃ p left e, s.step 0 (.defineBy "x" "y" .real) = (.error e, s.holding 0 p left) ∧
      left.find? "x" = some ⟨"x", .text "b", 0, false⟩ := by
  intro env s
  refine ⟨?_, ?_, ?_⟩
  · have hrefused : ((s.calculator 0).compileText "x =").toOption.map (·.code) = none := by
      decide +kernel
    cases hcompile : (s.calculator 0).compileText "x =" with
    | ok p => rw [hcompile] at hrefused; cases hrefused
    | error e => exact ⟨e, ((steps_of_expression s 0 "x" "x =" .real).1 e hcompile).2.2⟩
  · have hfails : ((s.calculator 0).compileText "x = y, x + x").toOption.map
        (fun p ↦ (p.run s.builtins s.variables).1) =
        some (.error (.eval (.operands .add .text .text) (some 5))) := by decide +kernel
    cases hcompile : (s.calculator 0).compileText "x = y, x + x" with
    | error e => rw [hcompile] at hfails; cases hfails
    | ok p =>
      rw [hcompile] at hfails
      have hrun : p.run s.builtins s.variables =
          (.error (.eval (.operands .add .text .text) (some 5)), (p.run s.builtins s.variables).2) :=
        Prod.ext (Option.some.inj hfails) rfl
      exact ⟨p, _, ((steps_of_expression s 0 "x" "x = y, x + x" .real).2.1 p _ _ hcompile hrun).2.1⟩
  · have hvalue : ((s.calculator 0).compileText "y").toOption.map
        (fun p ↦ ((p.run s.builtins s.variables).1, (p.run s.builtins s.variables).2.find? "x")) =
        some (.ok (.text "b"), some ⟨"x", .text "a", 0, false⟩) := by decide +kernel
    cases hcompile : (s.calculator 0).compileText "y" with
    | error e => rw [hcompile] at hvalue; cases hvalue
    | ok p =>
      rw [hcompile] at hvalue
      obtain ⟨hresult, hfind⟩ := Prod.mk.inj (Option.some.inj hvalue)
      have hrun : p.run s.builtins s.variables =
          (.ok (.text "b"), (p.run s.builtins s.variables).2) := Prod.ext hresult rfl
      obtain ⟨_, hstep, _, _, hput, _⟩ :=
        (steps_of_expression s 0 "x" "y" .real).2.2 p _ _ hcompile hrun
      rw [hfind] at hput
      exact ⟨p, _, _, hstep, hput⟩

end Session

end Reckoner
