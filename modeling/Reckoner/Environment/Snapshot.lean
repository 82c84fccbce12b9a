import Reckoner.Decimal.Reading
import Reckoner.Document.Printer
import Reckoner.Document.Reading
import Reckoner.Environment.Basic

/-!
# Snapshots

A snapshot holds the name, kind and value of every variable, in the order of the names.  It is a
datum that can be handed around, or the text of a document with the snapshot in it.

* `Environment.snapshot` takes a snapshot and `Environment.update` puts one back.  Nothing is
  changed unless every entry is valid.
* `Environment.save` and `Environment.restore` do the same with text.

Names are texts, and so are the keys of every snapshot that is taken or read from a document.  In a
mapping from elsewhere, a key of another kind is outside of what a snapshot is for: its entry is put
back under the text of the key.
-/

set_option autoImplicit false

namespace Reckoner

/-- Why a snapshot is not put back. -/
inductive SnapshotError where
  | notMapping (d : Datum)
  | badEntry (name : String) (entry : Datum)
  | unknownType (name : String) (type : Datum)
  | badValue (name : String) (raw : Datum)
  /-- A whole number is beyond all floats. -/
  | tooLarge
  | notObject (d : Datum)
  /-- The text is no document. -/
  | notDocument

/-- The report of a failure; two failures have none. -/
def SnapshotError.report? : SnapshotError → Option Report
  | notMapping d => some
    { kind := .environment
      message := "Variable snapshot must be a mapping, got " ++ d.typeName }
  | badEntry name entry => some
    { kind := .environment
      message := "Invalid entry for variable '" ++ name ++ "': " ++ entry.shown
      suggestion :=
        some "Entries look like \x7b\"type\": \"scalar\", \"value\": 1.0\x7d" }
  | unknownType name type => some
    { kind := .environment
      message := "Unknown variable type '" ++ type.plain ++ "' for '" ++ name ++ "'" }
  | badValue name raw => some
    { kind := .environment
      message := "Invalid value for variable '" ++ name ++ "': " ++ raw.shown }
  | notObject d => some
    { kind := .environment
      message := "Snapshot file must hold a JSON object, got " ++ d.typeName }
  | tooLarge | notDocument => none

/-! ## Numbers in entries -/

/-- Why a datum is not read as a number. -/
inductive NumberError where
  | notNumber
  | tooLarge
  deriving DecidableEq, Repr, Inhabited

/-- Reads a datum as a real number.  Truth values count as one and zero, and texts are read. -/
def Datum.readNumber : Datum → Except NumberError Float
  | bool b => .ok (if b then 1.0 else 0.0)
  | int n => match Decimal.floatOfInt? n with
    | some x => .ok x
    | none => .error .tooLarge
  | real x => .ok x
  | text s => match Decimal.readFloat? s with
    | some x => .ok x
    | none => .error .notNumber
  | null | list _ | tuple _ | mapping _ | value _ => .error .notNumber

/-- Item number `i` of a datum: a character of a text, an item of a list or tuple, or the value of
the key that is equal to `i`. -/
def Datum.item? (i : Nat) : Datum → Option Datum
  | text s => s.toList[i]?.map fun c => .text c.toString
  | list items | tuple items => items[i]?
  | mapping entries => entries.lookup (.int i)
  | _ => none

/-- Reads item number `i` of a datum as a real number. -/
def Datum.readItem (d : Datum) (i : Nat) : Except NumberError Float :=
  match d.item? i with
  | some item => item.readNumber
  | none => .error .notNumber

namespace Environment

/-! ## Taking snapshots -/

/-- The contents of a value in a snapshot. -/
def snapshotValue : Value → Document
  | .scalar x => .real x
  | .vector a => .array (a.components.map .real)
  | .text s => .text s

/-- The entry of a variable. -/
def snapshotEntry (v : Variable) : String × Document :=
  (v.name, .object [("type", .text v.value.kind.name), ("value", snapshotValue v.value)])

/-- The snapshot as a document. -/
def snapshotDocument (env : Environment) : Document := .object (env.sorted.map snapshotEntry)

/-- The snapshot. -/
def snapshot (env : Environment) : Datum := env.snapshotDocument.toDatum

/-- The text of a document with the snapshot in it. -/
def save (env : Environment) : String :=
  (Document.object [("variables", env.snapshotDocument)]).render

/-! ## Putting snapshots back -/

/-- Names a failure to read a number for a variable. -/
def numberFailure (name : String) (raw : Datum) : NumberError → SnapshotError
  | .notNumber => .badValue name raw
  | .tooLarge => .tooLarge

/-- The three components of a vector. -/
def readVector (raw : Datum) : Except NumberError Vec3 := do
  return ⟨← raw.readItem 0, ← raw.readItem 1, ← raw.readItem 2⟩

/-- The value of an entry. -/
def readEntry (name : String) (entry : Datum) : Except SnapshotError Value :=
  match entry with
  | .mapping fields =>
    let type := (fields.lookup (.text "type")).getD (.text Kind.scalar.name)
    let raw := (fields.lookup (.text "value")).getD .null
    match type with
    | .text "scalar" => (raw.readNumber.map .scalar).mapError (numberFailure name raw)
    | .text "vector" => ((readVector raw).map .vector).mapError (numberFailure name raw)
    | .text "text" => .ok (.text raw.plain)
    | type => .error (.unknownType name type)
  | entry => .error (.badEntry name entry)

/-- The names and values of all entries. -/
def readEntries (entries : List (Key × Datum)) : Except SnapshotError (List (String × Value)) :=
  entries.mapM fun entry => do
    let name := entry.1.plain
    return (name, ← readEntry name entry.2)

/-- The names and values of a snapshot. -/
def readSnapshot : Datum → Except SnapshotError (List (String × Value))
  | .mapping entries => readEntries entries
  | d => .error (.notMapping d)

/-- Gives several variables their values. -/
def putAll (env : Environment) (values : List (String × Value)) : Environment :=
  values.foldl (fun env entry => env.put entry.1 entry.2) env

/-- Puts a snapshot back. -/
def update (env : Environment) (d : Datum) : Except SnapshotError Environment :=
  (readSnapshot d).map env.putAll

/-- The snapshot in the text of a document. -/
def readDocument (text : String) : Except SnapshotError Datum :=
  match Document.parse? text with
  | none => .error .notDocument
  | some (.object fields) =>
    match fields.lookup "variables" with
    | some d => .ok d.toDatum
    | none => .ok (.mapping [])
  | some d => .error (.notObject d.toDatum)

/-- Puts the snapshot in the text of a document back. -/
def restore (env : Environment) (text : String) : Except SnapshotError Environment := do
  env.update (← readDocument text)

end Environment

end Reckoner
