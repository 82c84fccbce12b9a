import Reckoner.Environment.Basic
import Reckoner.FunctionTable

/-!
# Scopes

A scope is what an expression can refer to: the functions it may call, the variables there are, and
how deeply it may nest.  A name stands for a function if there is one, and for a variable otherwise.
-/

set_option autoImplicit false

namespace Reckoner

/-- What an expression can refer to. -/
structure Scope where
  functions : FunctionTable
  «variables» : Environment
  /-- How deeply operands may nest. -/
  limit : Int
  deriving DecidableEq, Inhabited

/-- What a name stands for. -/
inductive Meaning where
  | function (f : Function)
  | variable (slot : Nat)
  | unknown
  deriving DecidableEq, Repr, Inhabited

namespace Scope

/-- What a name stands for. -/
def meaning (scope : Scope) (name : String) : Meaning :=
  match scope.functions.find? name with
  | some f => .function f
  | none =>
    match scope.variables.find? name with
    | some v => .variable v.slot
    | none => .unknown

/-- The names most like one that stands for nothing. -/
def similar (scope : Scope) (name : String) : List String :=
  Text.closeMatches name (scope.variables.names ++ scope.functions.names)

variable {scope : Scope} {name : String}

theorem find?_of_meaning_function {f : Function} (h : scope.meaning name = .function f) :
    scope.functions.find? name = some f := by
  unfold meaning at h
  split at h
  · next hfind => rw [hfind, Meaning.function.inj h]
  · split at h <;> cases h

/-- A name that means a variable is no function. -/
theorem find?_of_meaning_variable {slot : Nat} (h : scope.meaning name = .variable slot) :
    scope.functions.find? name = none ∧
      ∃ v, scope.variables.find? name = some v ∧ v.slot = slot := by
  unfold meaning at h
  split at h
  · cases h
  · next hnone =>
    split at h
    · next v hfind => exact ⟨hnone, v, hfind, Meaning.variable.inj h⟩
    · cases h

end Scope

end Reckoner
