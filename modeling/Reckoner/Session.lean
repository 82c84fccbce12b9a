import Reckoner.Calculator
import Reckoner.Environment.Listing
import Reckoner.Environment.Notes

/-!
# Sessions

A session has several calculators that share their functions and variables, and a file of the
programs that were read in it.  `Session.step` answers one command, given to one of the calculators,
with the notes that it leaves behind.
-/

set_option autoImplicit false

namespace Reckoner

/-- What a calculator can be asked to do. -/
inductive Command where
  /-- Read an expression, hold its program, and file it. -/
  | parse (text : String)
  /-- Run a program of the file. -/
  | run (number : Nat)
  /-- Compile a text as it is. -/
  | compile (text : String)
  /-- Check the structure of a text as it is. -/
  | check (text : String)
  | evaluate (form : Form)
  | evaluateText (text : String) (form : Form)
  | defineBy (name text : String) (form : Form)
  | listing
  | has (name : String)
  | set (name : String) (value : Datum)
  | define (name : String) (value : Datum)
  | remove (name : String)
  | copy (newName oldName : String)
  | copySet (oldHead newHead : String)
  | names
  | activeNames
  | read (name : String) (form : Form)
  | readFirst (names : List String) (form : Form)
  | readFirstOr (names : List String) (default : Datum) (form : Form)
  | digest
  | resetActive
  | size
  | find (name : String)
  | get (name : String)
  | slotOf (name : String)
  | findSlot (slot : Int)
  | storeSlot (slot : Int) (value : Value)
  | listAll
  | listActive
  | snapshot
  | update (data : Datum)
  | save
  | restore (text : String)
  deriving Inhabited

/-- What a command is answered with. -/
inductive Answer where
  | datum (d : Datum)
  | variable (v : Variable)
  | program (p : Program)
  | problem (p : Problem)
  /-- The text of a snapshot document. -/
  | document (text : String)
  deriving Inhabited

namespace Answer

/-- No answer. -/
def nothing : Answer := datum .null

/-- Yes or no. -/
def truth (b : Bool) : Answer := datum (.bool b)

/-- A number. -/
def number (n : Nat) : Answer := datum (.int n)

/-- A text. -/
def text (s : String) : Answer := datum (.text s)

/-- Several texts. -/
def texts (names : List String) : Answer := datum (.list (names.map .text))

/-- A variable, if there is one. -/
def ofVariable? : Option Variable → Answer
  | some v => .variable v
  | none => nothing

end Answer

/-- Calculators that share their functions and variables. -/
structure Session where
  functions : FunctionTable
  builtins : List Builtin
  limit : Int
  «variables» : Environment
  /-- The program that each calculator holds. -/
  held : List (Option Program)
  /-- The programs that were read, in order. -/
  programs : List Program
  deriving Inhabited

namespace Session

/-- A session with a number of calculators, none of which holds a program. -/
def start (functions : FunctionTable) (builtins : List Builtin) (limit : Int)
    (env : Environment) (calculators : Nat) : Session :=
  ⟨functions, builtins, limit, env, List.replicate calculators none, []⟩

/-- One of the calculators. -/
def calculator (s : Session) (on : Nat) : Calculator :=
  ⟨s.functions, s.builtins, s.limit, (s.held[on]?).join, s.variables⟩

/-- Puts a calculator back. -/
def putBack (s : Session) (on : Nat) (c : Calculator) : Session :=
  { s with held := s.held.set on c.held, «variables» := c.variables }

/-- Takes over what an operation of a calculator answers and leaves behind. -/
def takeOver (s : Session) (on : Nat) (outcome : Except Failure Datum × Calculator) :
    Except Failure Answer × Session :=
  (outcome.1.map .datum, s.putBack on outcome.2)

/-- Takes over an environment, or keeps the present one if there is a failure. -/
def change (s : Session) (outcome : Except Failure Environment) (answer : Environment → Answer) :
    Except Failure Answer × Session :=
  match outcome with
  | .ok env => (.ok (answer env), { s with «variables» := env })
  | .error e => (.error e, s)

/-- The variable of a name, after a change. -/
def variableOf (name : String) (env : Environment) : Answer := .ofVariable? (env.find? name)

/-- Answers a command. -/
def step (s : Session) (on : Nat) (command : Command) : Except Failure Answer × Session :=
  let c := s.calculator on
  let env := s.variables
  match command with
  | .parse text =>
    match c.parse text with
    | .ok (p, c) => (.ok (.program p), { s.putBack on c with programs := s.programs ++ [p] })
    | .error e => (.error e, s)
  | .run number =>
    match s.programs[number]? with
    | some p =>
      let (result, c) := c.run p
      ((result.mapError (.run · none)).map (.datum <| .value ·), s.putBack on c)
    | none => (.error .nothingToEvaluate, s)
  | .compile text => (((c.scope.compile text).mapError (.compilation · none)).map .program, s)
  | .check text =>
    match c.scope.problem? text with
    | some p => (.ok (.problem p), s)
    | none => (.ok .nothing, s)
  | .evaluate form => s.takeOver on (c.evaluate form)
  | .evaluateText text form => s.takeOver on (c.evaluateText text form)
  | .defineBy name text form => s.takeOver on (c.defineBy name text form)
  | .listing => (c.listing.map .text, s)
  | .has name => (.ok (.truth (env.has name)), s)
  | .set name value => s.change ((env.set name value).mapError .intake) (variableOf name)
  | .define name value =>
    s.change ((env.define name value).mapError .ofDefinition) (variableOf name)
  | .remove name => s.change ((env.remove name).mapError .variable) fun _ => .nothing
  | .copy newName oldName =>
    s.change ((env.copy newName oldName).mapError .variable) (variableOf newName)
  | .copySet oldHead newHead =>
    match env.copySet oldHead newHead with
    | .ok (names, env) => (.ok (.texts names), { s with «variables» := env })
    | .error e => (.error (.variable e), s)
  | .names => (.ok (.texts env.names), s)
  | .activeNames => (.ok (.texts env.activeNames), s)
  | .read name form => s.takeOver on (c.read name form)
  | .readFirst names form => s.takeOver on (c.readFirst names form)
  | .readFirstOr names default form => s.takeOver on (c.readFirstOr names default form)
  | .digest => (.ok (.text env.digest), s)
  | .resetActive => s.change (.ok env.resetActive) fun _ => .nothing
  | .size => (.ok (.number env.size), s)
  | .find name => (.ok (.ofVariable? (env.find? name)), s)
  | .get name =>
    match env.get name with
    | .ok (value, env) => (.ok (.datum (.value value)), { s with «variables» := env })
    | .error e => (.error (.variable e), s)
  | .slotOf name => (((env.slotOf name).mapError .variable).map .number, s)
  | .findSlot slot => (.ok (.ofVariable? (env.findSlot? slot)), s)
  | .storeSlot slot value =>
    match env.storeSlot slot value with
    | some env => (.ok (.truth true), { s with «variables» := env })
    | none => (.ok (.truth false), s)
  | .listAll => (.ok (.text env.listAll), s)
  | .listActive => (.ok (.text env.listActive), s)
  | .snapshot => (.ok (.datum env.snapshot), s)
  | .update data => s.change ((env.update data).mapError .snapshot) fun _ => .nothing
  | .save => (.ok (.document env.save), s)
  | .restore text => s.change ((env.restore text).mapError .snapshot) fun _ => .nothing

/-- The notes on the value that `defineBy` gives a variable. -/
def defineNotes (c : Calculator) (name text : String) : List Note :=
  match c.parse text with
  | .error _ => []
  | .ok (_, c) =>
    match c.evaluateHeld with
    | (.ok value, c) => c.variables.putNotes name value
    | (.error _, _) => []

/-- The notes that the answer to a command leaves behind. -/
def notes (s : Session) (on : Nat) (command : Command) : List Note :=
  let c := s.calculator on
  let env := s.variables
  match command with
  | .parse text | .evaluateText text _ => c.parseNotes text
  | .compile text => c.compileNotes text
  | .defineBy name text _ => c.parseNotes text ++ defineNotes c name text
  | .set name value => env.setNotes name value
  | .remove name => env.eraseNotes name
  | .copy newName oldName => env.copyNotes newName oldName
  | .copySet oldHead newHead => env.copySetNotes oldHead newHead
  | .update data => env.updateNotes data
  | .restore text => env.restoreNotes text
  | _ => []

end Session

end Reckoner
