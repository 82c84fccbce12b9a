import Reckoner.CompileError
import Reckoner.Environment.Snapshot
import Reckoner.EvalError
import Reckoner.Problem.Basic

/-!
# Failures

Everything that can go wrong between a request and its answer, and its report.  A few failures have
no report: a whole number beyond all floats, a text that is no document, and the faults of code
written by hand.
-/

set_option autoImplicit false

namespace Reckoner

/-- What goes wrong between a request and its answer. -/
inductive Failure where
  /-- A text has a structural problem. -/
  | malformed (problem : Problem) (text : String)
  /-- A text is not compiled; the text is known where it was asked for as an expression. -/
  | compilation (error : CompileError) (text : Option String)
  /-- A run fails; the text is that of the program, where that is held. -/
  | run (fault : Fault) (text : Option String)
  /-- Nothing was read before a result was asked for. -/
  | nothingToEvaluate
  /-- Nothing was read before a listing was asked for. -/
  | nothingToList
  | conversion (e : ConversionError)
  | intake (e : IntakeError)
  | variable (e : VariableError)
  | snapshot (e : SnapshotError)

/-- The report of a structural problem. -/
def Problem.report (p : Problem) (text : String) : Report :=
  { kind := .malformed, message := p.message, position := some p.position, expression := some text }

/-- The report of a datum that is not taken in. -/
def IntakeError.report? : IntakeError → Option Report
  | conversion e => some e.report
  | tooLarge => none

/-- A report with the expression, where that is known. -/
def Report.inExpression? (r : Report) (text : Option String) : Report :=
  match text with
  | some text => r.inExpression text
  | none => r

namespace Failure

/-- The failure to define a variable. -/
def ofDefinition : DefinitionError → Failure
  | .variable e => .variable e
  | .intake e => .intake e

/-- The report of a failure. -/
def report? : Failure → Option Report
  | malformed p text => some (p.report text)
  | compilation e text => some (e.report.inExpression? text)
  | run fault text => fault.report?.map (·.inExpression? text)
  | nothingToEvaluate => some
    { kind := .general
      message := "No expression has been parsed"
      suggestion := some "Call parse() before evaluate()" }
  | nothingToList => some { kind := .general, message := "No expression has been parsed" }
  | conversion e => some e.report
  | intake e => e.report?
  | .variable e => some e.report
  | snapshot e => e.report?

end Failure

end Reckoner
