import Reckoner.Environment.Snapshot
import Reckoner.Note

/-!
# Notes on changes of the environment

For each operation that changes variables, the notes it leaves behind.  They depend on the
environment before the operation only.
-/

set_option autoImplicit false

namespace Reckoner.Environment

/-- The notes on `put`. -/
def putNotes (env : Environment) (name : String) (value : Value) : List Note :=
  match env.find? name with
  | some v => if v.value.kind = value.kind then [] else [.kindChanged name v.value.kind value.kind]
  | none => []

/-- The notes on `set`. -/
def setNotes (env : Environment) (name : String) (d : Datum) : List Note :=
  match Value.ofDatum d with
  | .ok value => env.putNotes name value
  | .error _ => []

/-- The notes on `erase`. -/
def eraseNotes (env : Environment) (name : String) : List Note :=
  (env.find? name).toList.map fun v => .removed name v.slot

/-- The notes on `copy`. -/
def copyNotes (env : Environment) (newName oldName : String) : List Note :=
  if env.has oldName ∧ newName ≠ oldName then env.eraseNotes newName else []

/-- The notes on copies made one after the other. -/
def copyAllNotes (oldHead newHead : String) : Environment → List String → List Note
  | _, [] => []
  | env, name :: names =>
    let newName := replaceHead oldHead newHead name
    match env.copy newName name with
    | .ok next => env.copyNotes newName name ++ copyAllNotes oldHead newHead next names
    | .error _ => []

/-- The notes on `copySet`. -/
def copySetNotes (env : Environment) (oldHead newHead : String) : List Note :=
  if oldHead = newHead then []
  else copyAllNotes oldHead newHead env (env.namesWithHead oldHead)

/-- The notes on entries of a snapshot that are put back one after the other. -/
def putAllNotes : Environment → List (String × Value) → List Note
  | _, [] => []
  | env, (name, value) :: rest =>
    (if env.has name then [.overwritten name] else []) ++ env.putNotes name value ++
      putAllNotes (env.put name value) rest

/-- The notes on `update`. -/
def updateNotes (env : Environment) (d : Datum) : List Note :=
  match readSnapshot d with
  | .ok values => env.putAllNotes values
  | .error _ => []

/-- The notes on `restore`. -/
def restoreNotes (env : Environment) (text : String) : List Note :=
  match readDocument text with
  | .ok d => env.updateNotes d
  | .error _ => []

end Reckoner.Environment
