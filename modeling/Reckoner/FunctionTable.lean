import Reckoner.Builtin
import Reckoner.Text.Identifier

/-!
# Function tables

A function table lists the functions that expressions may call, each with the number of arguments
it takes.  The place of a function in the list is its code.

* `FunctionTable.ofList` builds a table, or names the first entry that has no place in one.
* `FunctionTable.find?` looks a function up by name and `FunctionTable.findCode?` by code.
* `FunctionTable.builtins` finds what each function of a table computes.
-/

set_option autoImplicit false

namespace Reckoner

/-- A function that expressions may call. -/
structure Function where
  name : String
  code : Nat
  arity : Nat
  deriving DecidableEq, Repr, Inhabited

/-- The functions that expressions may call, in the order of their codes. -/
structure FunctionTable where
  functions : List Function
  deriving DecidableEq, Repr, Inhabited

/-- Why an entry has no place in a table. -/
inductive TableError where
  | repeated (name : String)
  | notIdentifier (name : String)
  | negativeArity (name : String) (arity : Int)
  deriving DecidableEq, Repr, Inhabited

/-- What is wrong with an entry. -/
def TableError.message : TableError → String
  | repeated name => "Function '" ++ name ++ "' registered twice"
  | notIdentifier name => "Function name '" ++ name ++ "' is not an identifier"
  | negativeArity name arity =>
    "Function '" ++ name ++ "' has negative arity " ++ toString arity

namespace FunctionTable

/-- The function of a name. -/
def find? (table : FunctionTable) (name : String) : Option Function :=
  table.functions.find? (·.name == name)

/-- The function of a code. -/
def findCode? (table : FunctionTable) (code : Int) : Option Function :=
  if 0 ≤ code then table.functions[code.toNat]? else none

/-- The names in the order of the codes. -/
def names (table : FunctionTable) : List String := table.functions.map (·.name)

/-- The number of functions. -/
def size (table : FunctionTable) : Nat := table.functions.length

/-- Adds a function with the next code. -/
def add (table : FunctionTable) (name : String) (arity : Int) :
    Except TableError FunctionTable :=
  if (table.find? name).isSome then .error (.repeated name)
  else if !Text.isIdentifier name then .error (.notIdentifier name)
  else if arity < 0 then .error (.negativeArity name arity)
  else .ok ⟨table.functions ++ [⟨name, table.size, arity.toNat⟩]⟩

/-- The table of a list of names and numbers of arguments. -/
def ofList (entries : List (String × Int)) : Except TableError FunctionTable :=
  entries.foldlM (fun table entry => table.add entry.1 entry.2) ⟨[]⟩

/-- The table of all built-in functions. -/
def standard : FunctionTable :=
  ⟨Builtin.all.zipIdx.map fun (function, code) => ⟨function.name, code, function.arity⟩⟩

/-- A function of a table that is not built in. -/
structure Unimplemented where
  name : String
  deriving DecidableEq, Repr, Inhabited

/-- The message about a function that is not built in. -/
def Unimplemented.message (e : Unimplemented) : String :=
  "Function '" ++ e.name ++ "' has no implementation"

/-- What each function of a table computes, in the order of the codes. -/
def builtins (table : FunctionTable) : Except Unimplemented (List Builtin) :=
  table.functions.mapM fun function =>
    match Builtin.ofName? function.name with
    | some builtin => .ok builtin
    | none => .error ⟨function.name⟩

end FunctionTable

end Reckoner
