import Reckoner.Text.Similar
import Reckoner.Value.Conversion

/-!
# The environment

An environment holds named variables.  Each variable owns a slot, a number that compiled code knows
it by.  A variable keeps its slot while it is overwritten, and a slot is never given out again: a
variable that is removed and made anew has a new slot.

* `find?` looks a variable up by name and `findSlot?` by slot.
* `define`, `set`, `put`, `remove`, `copy` and `copySet` change which variables there are; those
  that can fail leave nothing behind when they do.
* `get` and `load` read a variable by name and by slot and mark it active; `storeSlot` writes one.
-/

set_option autoImplicit false

namespace Reckoner

/-- A named value. -/
structure Variable where
  name : String
  value : Value
  slot : Nat
  active : Bool
  deriving DecidableEq, Inhabited

/-- The variables in the order in which they were made, and the slot of the next one. -/
structure Environment where
  «variables» : List Variable
  nextSlot : Nat
  deriving DecidableEq, Inhabited

/-- Why an operation on variables fails. -/
inductive VariableError where
  | alreadyDefined (name : String)
  | undefined (name : String) (similar : List String)
  | noneWithHead (head : String)
  | noneOf (names : List String)
  deriving DecidableEq, Repr, Inhabited

/-- The question whether one of several names was meant. -/
def didYouMean (names : List String) : String :=
  "Did you mean: " ++ ", ".intercalate names ++ "?"

/-- The report of a failed operation on variables. -/
def VariableError.report : VariableError → Report
  | alreadyDefined name =>
    { kind := .environment
      message := "Variable already defined: '" ++ name ++ "'"
      suggestion := some "Use set() to overwrite an existing variable" }
  | undefined name similar =>
    { kind := .environment
      message := "Undefined variable: '" ++ name ++ "'"
      suggestion := if similar.isEmpty then none else some (didYouMean similar) }
  | noneWithHead head =>
    { kind := .environment, message := "No variables start with '" ++ head ++ "'" }
  | noneOf names =>
    { kind := .environment, message := "No variables found: " ++ ", ".intercalate names }

/-- Why a variable is not defined. -/
inductive DefinitionError where
  | variable (e : VariableError)
  | intake (e : IntakeError)

namespace Environment

/-- The environment without variables. -/
def empty : Environment := ⟨[], 0⟩

/-! ## Looking variables up -/

/-- The variable of a name. -/
def find? (env : Environment) (name : String) : Option Variable :=
  env.variables.find? (·.name == name)

/-- Whether a name is defined. -/
def has (env : Environment) (name : String) : Bool := (env.find? name).isSome

/-- The variable that owns a slot. -/
def findSlot? (env : Environment) (slot : Int) : Option Variable :=
  env.variables.find? fun v => decide ((v.slot : Int) = slot)

/-- The number of variables. -/
def size (env : Environment) : Nat := env.variables.length

/-- The variables in the order of their names. -/
def sorted (env : Environment) : List Variable :=
  env.variables.mergeSort fun v w => decide (v.name ≤ w.name)

/-- The names in order. -/
def names (env : Environment) : List String := env.sorted.map (·.name)

/-- The names of the active variables in order. -/
def activeNames (env : Environment) : List String :=
  (env.sorted.filter (·.active)).map (·.name)

/-- The complaint that a name is not defined, with the names most like it. -/
def undefined (env : Environment) (name : String) : VariableError :=
  .undefined name (Text.closeMatches name (env.variables.map (·.name)))

/-- The variable of a name that should be defined. -/
def lookup (env : Environment) (name : String) : Except VariableError Variable :=
  match env.find? name with
  | some v => .ok v
  | none => .error (env.undefined name)

/-- The slot of a variable. -/
def slotOf (env : Environment) (name : String) : Except VariableError Nat :=
  (env.lookup name).map (·.slot)

/-! ## Changing variables -/

/-- Adds a variable with the next slot. -/
def create (env : Environment) (name : String) (value : Value) : Environment :=
  ⟨env.variables ++ [⟨name, value, env.nextSlot, false⟩], env.nextSlot + 1⟩

/-- Changes the variables that satisfy a condition. -/
def updateWhere (env : Environment) (condition : Variable → Bool) (change : Variable → Variable) :
    Environment :=
  { env with «variables» := env.variables.map fun v => if condition v then change v else v }

/-- Takes a name out. -/
def erase (env : Environment) (name : String) : Environment :=
  { env with «variables» := env.variables.filter (·.name != name) }

/-- Gives a variable a value; a name that is not defined becomes a new variable. -/
def put (env : Environment) (name : String) (value : Value) : Environment :=
  if env.has name then env.updateWhere (·.name == name) fun v => { v with value }
  else env.create name value

/-- Makes a new variable. -/
def define (env : Environment) (name : String) (d : Datum) :
    Except DefinitionError Environment :=
  if env.has name then .error (.variable (.alreadyDefined name))
  else
    match Value.ofDatum d with
    | .ok value => .ok (env.create name value)
    | .error e => .error (.intake e)

/-- Gives a variable the value of a datum. -/
def set (env : Environment) (name : String) (d : Datum) : Except IntakeError Environment :=
  (Value.ofDatum d).map (env.put name)

/-- Takes a variable out; its slot stays unused. -/
def remove (env : Environment) (name : String) : Except VariableError Environment :=
  (env.lookup name).map fun _ => env.erase name

/-- Marks a variable as read. -/
def activate (env : Environment) (slot : Nat) : Environment :=
  env.updateWhere (·.slot == slot) fun v => { v with active := true }

/-- Reads a variable by name. -/
def get (env : Environment) (name : String) : Except VariableError (Value × Environment) :=
  (env.lookup name).map fun v => (v.value, env.activate v.slot)

/-- Reads a variable by slot. -/
def load (env : Environment) (slot : Int) : Option (Value × Environment) :=
  (env.findSlot? slot).map fun v => (v.value, env.activate v.slot)

/-- Writes a variable by slot. -/
def storeSlot (env : Environment) (slot : Int) (value : Value) : Option Environment :=
  (env.findSlot? slot).map fun v => env.updateWhere (·.slot == v.slot) fun v => { v with value }

/-- No variable has been read. -/
def resetActive (env : Environment) : Environment :=
  env.updateWhere (fun _ => true) fun v => { v with active := false }

/-! ## Copies -/

/-- Makes a new variable with the value of another.  A variable that has the new name is taken out
first; a variable is its own copy. -/
def copy (env : Environment) (newName oldName : String) : Except VariableError Environment := do
  let source ← env.lookup oldName
  if newName = oldName then return env
  else return (env.erase newName).create newName source.value

/-- Whether a name starts with a head. -/
def startsWith (head name : String) : Bool := head.toList.isPrefixOf name.toList

/-- A name with another head. -/
def replaceHead (oldHead newHead name : String) : String :=
  newHead ++ String.ofList (name.toList.drop oldHead.length)

/-- The names that start with a head, in order. -/
def namesWithHead (env : Environment) (head : String) : List String :=
  env.names.filter (startsWith head)

/-- Copies every variable whose name starts with `oldHead` to the name with `newHead` instead, one
after the other in the order of their names.  Answers the new names in order. -/
def copySet (env : Environment) (oldHead newHead : String) :
    Except VariableError (List String × Environment) :=
  if oldHead = newHead then .ok ([], env)
  else
    match env.namesWithHead oldHead with
    | [] => .error (.noneWithHead oldHead)
    | sources => do
      let env ← sources.foldlM
        (fun env name => env.copy (replaceHead oldHead newHead name) name) env
      return ((sources.map (replaceHead oldHead newHead)).mergeSort fun a b => decide (a ≤ b), env)

end Environment

end Reckoner
