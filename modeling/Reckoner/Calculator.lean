import Reckoner.Expr.Reading
import Reckoner.Failure
import Reckoner.Note
import Reckoner.Problem.Check
import Reckoner.Program.Listing
import Reckoner.Program.Run
import Reckoner.Text.Blank

/-!
# The calculator

A calculator has functions, variables, and at most one program, the one it read last.

* `Calculator.parse` reads an expression and holds its program; if it fails, nothing changes.
* `Calculator.evaluate` runs the program that is held against the present variables.
* `Calculator.evaluateText` does one after the other, and `Calculator.defineBy` also keeps the
  result in a variable.
* `Calculator.read` and its relatives read variables by one or several names.

An operation that can change variables before it fails answers the calculator it leaves behind.
-/

set_option autoImplicit false

namespace Reckoner

/-- Functions, variables, and the program that was read last. -/
structure Calculator where
  functions : FunctionTable
  builtins : List Builtin
  limit : Int
  held : Option Program
  «variables» : Environment
  deriving Inhabited

namespace Calculator

/-- What an expression can refer to. -/
def scope (c : Calculator) : Scope := ⟨c.functions, c.variables, c.limit⟩

/-! ## Expressions -/

/-- Reads an expression without its blanks. -/
def compileText (c : Calculator) (expression : String) : Except Failure Program :=
  let text := Text.withoutBlanks expression
  match c.scope.problem? text with
  | some problem => .error (.malformed problem text)
  | none => (c.scope.compile text).mapError (.compilation · (some text))

/-- Reads an expression and holds its program. -/
def parse (c : Calculator) (expression : String) : Except Failure (Program × Calculator) :=
  (c.compileText expression).map fun p => (p, { c with held := some p })

/-- Runs a program. -/
def run (c : Calculator) (p : Program) : Except Fault Value × Calculator :=
  let (result, env) := p.run c.builtins c.variables
  (result, { c with «variables» := env })

/-- Runs the program that is held. -/
def evaluateHeld (c : Calculator) : Except Failure Value × Calculator :=
  match c.held with
  | none => (.error .nothingToEvaluate, c)
  | some p =>
    let (result, c) := c.run p
    (result.mapError (.run · (some p.source)), c)

/-- Gives a value a form. -/
def convert (value : Value) (form : Form) : Except Failure Datum :=
  (value.toForm form).mapError .conversion

/-- Runs the program that is held and gives its result a form. -/
def evaluate (c : Calculator) (form : Form) : Except Failure Datum × Calculator :=
  let (result, c) := c.evaluateHeld
  (result.bind (convert · form), c)

/-- Reads an expression and runs it. -/
def evaluateText (c : Calculator) (expression : String) (form : Form) :
    Except Failure Datum × Calculator :=
  match c.parse expression with
  | .ok (_, c) => c.evaluate form
  | .error e => (.error e, c)

/-- Gives a variable a value. -/
def put (c : Calculator) (name : String) (value : Value) : Calculator :=
  { c with «variables» := c.variables.put name value }

/-- Reads an expression, runs it, and gives a variable its value. -/
def defineBy (c : Calculator) (name expression : String) (form : Form) :
    Except Failure Datum × Calculator :=
  match c.parse expression with
  | .error e => (.error e, c)
  | .ok (_, c) =>
    match c.evaluateHeld with
    | (.error e, c) => (.error e, c)
    | (.ok value, c) => (convert value form, c.put name value)

/-- The listing of the program that is held. -/
def listing (c : Calculator) : Except Failure String :=
  match c.held with
  | none => .error .nothingToList
  | some p => .ok (p.listing (some c.functions))

/-! ## Variables -/

/-- Reads a variable and gives its value a form. -/
def read (c : Calculator) (name : String) (form : Form) : Except Failure Datum × Calculator :=
  match c.variables.get name with
  | .ok (value, env) => (convert value form, { c with «variables» := env })
  | .error e => (.error (.variable e), c)

/-- The first of several names that is defined. -/
def firstDefined (c : Calculator) (names : List String) : Option String :=
  names.find? c.variables.has

/-- Reads the first of several variables that is defined. -/
def readFirst (c : Calculator) (names : List String) (form : Form) :
    Except Failure Datum × Calculator :=
  match c.firstDefined names with
  | some name => c.read name form
  | none => (.error (.variable (.noneOf names)), c)

/-- Reads the first of several variables that is defined, or answers a default as it is. -/
def readFirstOr (c : Calculator) (names : List String) (default : Datum) (form : Form) :
    Except Failure Datum × Calculator :=
  match c.firstDefined names with
  | some name => c.read name form
  | none => (.ok default, c)

/-! ## Notes -/

/-- The notes on `Scope.compile`. -/
def compileNotes (c : Calculator) (text : String) : List Note :=
  match c.scope.compile text with
  | .ok p => [.compiled text p.size]
  | .error _ => []

/-- The notes on `parse`. -/
def parseNotes (c : Calculator) (expression : String) : List Note :=
  match c.compileText expression with
  | .ok p => [.compiled p.source p.size, .held p.source p.size]
  | .error (.malformed problem text) => [.malformed text problem]
  | .error (.compilation error (some text)) => [.refused text error]
  | .error _ => []

end Calculator

end Reckoner
