import Reckoner.CompileError
import Reckoner.Problem.Basic

/-!
# Notes

A note records something that happened: an expression that was read or refused, or a change of the
environment that is easily overlooked.  Each note has a weight, a source and a text.
-/

set_option autoImplicit false

namespace Reckoner

/-- How much a note weighs. -/
inductive Weight where
  | detail
  | warning
  deriving DecidableEq, Repr, Inhabited

/-- The part that makes a note. -/
inductive Source where
  | calculator
  | compiler
  | environment
  deriving DecidableEq, Repr, Inhabited

/-- Something that happened. -/
inductive Note where
  /-- A text has a structural problem. -/
  | malformed (text : String) (problem : Problem)
  /-- A text is not compiled. -/
  | refused (text : String) (error : CompileError)
  /-- A text was compiled to a number of instructions. -/
  | compiled (text : String) (size : Nat)
  /-- A text was compiled and is now held. -/
  | held (text : String) (size : Nat)
  /-- A variable takes a value of another kind. -/
  | kindChanged (name : String) (before after : Kind)
  /-- A variable was taken out. -/
  | removed (name : String) (slot : Nat)
  /-- A snapshot gives a variable another value. -/
  | overwritten (name : String)
  deriving DecidableEq, Repr, Inhabited

namespace Note

/-- The weight of a note: refusals are warnings. -/
def weight : Note → Weight
  | malformed .. | refused .. => .warning
  | compiled .. | held .. | kindChanged .. | removed .. | overwritten _ => .detail

/-- The part that makes a note. -/
def source : Note → Source
  | malformed .. | refused .. | held .. => .calculator
  | compiled .. => .compiler
  | kindChanged .. | removed .. | overwritten _ => .environment

/-- The text of a note. -/
def text : Note → String
  | malformed text p =>
    "syntax error in '" ++ text ++ "' at position " ++ toString p.position ++ ": " ++ p.message
  | refused text e =>
    "compile error in '" ++ text ++ "' at position " ++ toString e.position ++ ": " ++
      e.cause.message
  | compiled text n => "compiled '" ++ text ++ "' to " ++ toString n ++ " instructions"
  | held text n => "parsed '" ++ text ++ "' into " ++ toString n ++ " instructions"
  | kindChanged name before after =>
    "variable '" ++ name ++ "' changes kind from " ++ before.name ++ " to " ++ after.name
  | removed name slot => "removed variable '" ++ name ++ "' (slot " ++ toString slot ++ ")"
  | overwritten name => "snapshot overwrites variable '" ++ name ++ "'"

end Note

end Reckoner
