import Reckoner.Proofs.Environment.History
import Reckoner.Session

/-!
# What a session does to its variables

Whatever the calculators of a session are asked to do, the variables they share change by events
only (`Session.leadsTo_step`), so that what holds for every history of an environment holds for the
variables of every session.
-/

set_option autoImplicit false

namespace Reckoner

/-- Some events lead from an environment to another. -/
def Environment.LeadsTo (env env' : Environment) : Prop := ∃ events, env' = env.afterAll events

namespace Environment

variable {env env' env'' : Environment}

theorem LeadsTo.refl (env : Environment) : env.LeadsTo env := ⟨[], rfl⟩

theorem LeadsTo.single (env : Environment) (event : Event) : env.LeadsTo (env.after event) :=
  ⟨[event], rfl⟩

theorem LeadsTo.trans (h : env.LeadsTo env') (h' : env'.LeadsTo env'') : env.LeadsTo env'' := by
  obtain ⟨first, rfl⟩ := h
  obtain ⟨second, rfl⟩ := h'
  exact ⟨first ++ second, (afterAll_append env first second).symm⟩

theorem Reachable.leadsTo (h : env.Reachable) (h' : env.LeadsTo env') : env'.Reachable :=
  LeadsTo.trans h h'

end Environment

open Environment

namespace Calculator

variable {c c' : Calculator}

theorem variables_parse {expression : String} {p : Program}
    (h : c.parse expression = .ok (p, c')) : c'.variables = c.variables := by
  rw [parse] at h
  cases htext : c.compileText expression with
  | ok q => rw [htext] at h; cases h; rfl
  | error e => rw [htext] at h; cases h

theorem leadsTo_evaluateHeld (c : Calculator) :
    c.variables.LeadsTo c.evaluateHeld.2.variables := by
  rw [evaluateHeld]
  cases c.held with
  | none => exact .refl _
  | some p => exact .single _ (.run c.builtins p)

theorem leadsTo_evaluate (c : Calculator) (form : Form) :
    c.variables.LeadsTo (c.evaluate form).2.variables :=
  leadsTo_evaluateHeld c

theorem leadsTo_evaluateText (c : Calculator) (expression : String) (form : Form) :
    c.variables.LeadsTo (c.evaluateText expression form).2.variables := by
  rw [evaluateText]
  cases hparse : c.parse expression with
  | ok next => exact variables_parse hparse ▸ leadsTo_evaluate next.2 form
  | error e => exact .refl _

theorem leadsTo_defineBy (c : Calculator) (name expression : String) (form : Form) :
    c.variables.LeadsTo (c.defineBy name expression form).2.variables := by
  rw [defineBy]
  cases hparse : c.parse expression with
  | error e => exact .refl _
  | ok next =>
    have hrun := leadsTo_evaluateHeld next.2
    rw [← variables_parse hparse]
    dsimp only
    cases hheld : next.2.evaluateHeld with
    | mk result last =>
      rw [hheld] at hrun
      cases result with
      | error e => exact hrun
      | ok value => exact hrun.trans (.single _ (.set name (.value value)))

theorem leadsTo_read (c : Calculator) (name : String) (form : Form) :
    c.variables.LeadsTo (c.read name form).2.variables := by
  have hget := LeadsTo.single c.variables (.get name)
  rw [after] at hget
  rw [read]
  cases hname : c.variables.get name with
  | ok next => rw [hname] at hget; exact hget
  | error e => exact .refl _

theorem leadsTo_readFirst (c : Calculator) (names : List String) (form : Form) :
    c.variables.LeadsTo (c.readFirst names form).2.variables := by
  rw [readFirst]
  cases c.firstDefined names with
  | some name => exact leadsTo_read c name form
  | none => exact .refl _

theorem leadsTo_readFirstOr (c : Calculator) (names : List String) (default : Datum)
    (form : Form) : c.variables.LeadsTo (c.readFirstOr names default form).2.variables := by
  rw [readFirstOr]
  cases c.firstDefined names with
  | some name => exact leadsTo_read c name form
  | none => exact .refl _

end Calculator

namespace Session

/-- A change that is an event. -/
theorem leadsTo_change (s : Session) {outcome : Except Failure Environment}
    (answer : Environment → Answer) (event : Event)
    (h : s.variables.after event = outcome.toOption.getD s.variables) :
    s.variables.LeadsTo (s.change outcome answer).2.variables := by
  have hevent := LeadsTo.single s.variables event
  rw [h] at hevent
  cases outcome with
  | ok env => exact hevent
  | error e => exact .refl _

theorem toOption_mapError {ε ε' α : Type} (f : ε → ε') (x : Except ε α) :
    (x.mapError f).toOption = x.toOption := by
  cases x <;> rfl

/-- **Every command changes the variables by events.** -/
theorem leadsTo_step (s : Session) (on : Nat) (command : Command) :
    s.variables.LeadsTo (s.step on command).2.variables := by
  cases command with
  | parse text =>
    simp only [step]
    cases hparse : (s.calculator on).parse text with
    | ok next => exact ⟨[], Calculator.variables_parse hparse⟩
    | error e => exact .refl _
  | run number =>
    simp only [step]
    cases s.programs[number]? with
    | some p => exact .single _ (.run s.builtins p)
    | none => exact .refl _
  | check text =>
    simp only [step]
    cases (s.calculator on).scope.problem? text <;> exact .refl _
  | evaluate form => exact Calculator.leadsTo_evaluate (s.calculator on) form
  | evaluateText text form => exact Calculator.leadsTo_evaluateText (s.calculator on) text form
  | defineBy name text form => exact Calculator.leadsTo_defineBy (s.calculator on) name text form
  | read name form => exact Calculator.leadsTo_read (s.calculator on) name form
  | readFirst names form => exact Calculator.leadsTo_readFirst (s.calculator on) names form
  | readFirstOr names default form =>
    exact Calculator.leadsTo_readFirstOr (s.calculator on) names default form
  | set name value =>
    exact leadsTo_change s _ (.set name value) (by rw [toOption_mapError]; rfl)
  | define name value =>
    exact leadsTo_change s _ (.define name value) (by rw [toOption_mapError]; rfl)
  | remove name =>
    exact leadsTo_change s _ (.remove name) (by rw [toOption_mapError]; rfl)
  | copy newName oldName =>
    exact leadsTo_change s _ (.copy newName oldName) (by rw [toOption_mapError]; rfl)
  | resetActive => exact leadsTo_change s _ .resetActive rfl
  | update data =>
    exact leadsTo_change s _ (.update data) (by rw [toOption_mapError]; rfl)
  | restore text =>
    exact leadsTo_change s _ (.restore text) (by rw [toOption_mapError]; rfl)
  | copySet oldHead newHead =>
    have hcopy := LeadsTo.single s.variables (.copySet oldHead newHead)
    simp only [after] at hcopy
    simp only [step]
    cases hresult : s.variables.copySet oldHead newHead with
    | ok result => rw [hresult] at hcopy; exact hcopy
    | error e => exact .refl _
  | get name =>
    have hget := LeadsTo.single s.variables (.get name)
    simp only [after] at hget
    simp only [step]
    cases hresult : s.variables.get name with
    | ok result => rw [hresult] at hget; exact hget
    | error e => exact .refl _
  | storeSlot slot value =>
    have hstore := LeadsTo.single s.variables (.storeSlot slot value)
    simp only [after] at hstore
    simp only [step]
    cases hresult : s.variables.storeSlot slot value with
    | some env => rw [hresult] at hstore; exact hstore
    | none => exact .refl _
  | _ => exact .refl _

/-- What several commands leave behind, each given to one of the calculators. -/
def afterAll (s : Session) (commands : List (Nat × Command)) : Session :=
  commands.foldl (fun s command ↦ (s.step command.1 command.2).2) s

/-- **A session is a history of its variables.** -/
theorem leadsTo_afterAll (s : Session) (commands : List (Nat × Command)) :
    s.variables.LeadsTo (s.afterAll commands).variables := by
  induction commands generalizing s with
  | nil => exact .refl _
  | cons command commands ih => exact (leadsTo_step s command.1 command.2).trans (ih _)

end Session

end Reckoner
