import Reckoner.Environment.Basic

/-!
# Compile errors

Why a text is not compiled, and at which place of it.
-/

set_option autoImplicit false

namespace Reckoner

/-- Why a text is not compiled. -/
inductive CompileCause where
  | unexpectedCharacter (c : Char)
  | unexpectedEnd
  | unterminatedBracket
  /-- Brackets hold exactly one value. -/
  | notOneValue
  | badTarget
  | tooDeep (limit : Int)
  /-- The name of a function is followed by its arguments in brackets. -/
  | noBracket (function : String)
  | wrongArity (function : String) (arity got : Nat)
  /-- A name stands for nothing. -/
  | unknownName (name : String) (similar : List String)
  deriving DecidableEq, Repr, Inhabited

/-- What is wrong. -/
def CompileCause.message : CompileCause → String
  | unexpectedCharacter c => "Unexpected character '" ++ c.toString ++ "'"
  | unexpectedEnd => "Unexpected end of expression"
  | unterminatedBracket => "Unterminated bracket"
  | notOneValue => "Bracketed expression must produce exactly one value"
  | badTarget => "Assignment target is not a variable"
  | tooDeep limit => "Expression nested too deeply (limit " ++ toString limit ++ ")"
  | noBracket f => "Bracket does not follow function '" ++ f ++ "'"
  | wrongArity f arity got =>
    "Function '" ++ f ++ "' takes " ++ toString arity ++ " argument(s), got " ++ toString got
  | unknownName name _ => "Unknown identifier: '" ++ name ++ "'"

/-- What may help. -/
def CompileCause.suggestion? : CompileCause → Option String
  | unknownName _ similar =>
    some (if similar.isEmpty then "Define the variable before using it" else didYouMean similar)
  | _ => none

/-- A cause and its place. -/
structure CompileError where
  cause : CompileCause
  position : Nat
  deriving DecidableEq, Repr, Inhabited

/-- The report of a compile error. -/
def CompileError.report (e : CompileError) : Report :=
  { kind := .compilation
    message := e.cause.message
    position := some e.position
    suggestion := e.cause.suggestion? }

end Reckoner
