/-!
# Structural problems

A problem is what keeps a text from being an expression, and where.  Problems concern the order of
tokens and brackets; which names there are and how many arguments a function takes matters only
where it decides about that order.
-/

set_option autoImplicit false

namespace Reckoner

/-- What is wrong with a text. -/
inductive Flaw where
  | empty
  | symbolEnds
  | noTermBeforeComma
  | noTermBeforeClosing
  | noTarget
  | badTarget
  | noValue
  | operatorAfterOperator
  | noLeftOperand
  | malformedNumber
  | functionWithoutBracket
  | noArguments
  | variableCalled
  | tooManyClosing
  | commaOutsideArguments
  | noOperatorBeforeBracket
  | noOperator
  | illegalCharacter (c : Char)
  | unmatchedOpening
  | operatorEnds
  deriving DecidableEq, Repr, Inhabited

/-- The description of a flaw. -/
def Flaw.message : Flaw → String
  | empty => "empty expression"
  | symbolEnds => "symbol ends expression"
  | noTermBeforeComma => "missing term before comma"
  | noTermBeforeClosing => "missing term before close bracket"
  | noTarget => "assignment has no target"
  | badTarget => "assignment target is not a variable"
  | noValue => "assignment has no value"
  | operatorAfterOperator => "operator follows operator"
  | noLeftOperand => "operator has no left operand"
  | malformedNumber => "malformed number"
  | functionWithoutBracket => "bracket does not follow function"
  | noArguments => "no terms in a () function"
  | variableCalled => "variable used as a function"
  | tooManyClosing => "too many close brackets"
  | commaOutsideArguments => "comma outside function arguments"
  | noOperatorBeforeBracket => "missing operator before bracket"
  | noOperator => "missing operator"
  | illegalCharacter c => "illegal character '" ++ c.toString ++ "'"
  | unmatchedOpening => "unmatched open bracket"
  | operatorEnds => "expression ends with operator"

/-- A flaw and its place. -/
structure Problem where
  flaw : Flaw
  position : Nat
  deriving DecidableEq, Repr, Inhabited

/-- The description of a problem. -/
def Problem.message (p : Problem) : String := p.flaw.message

end Reckoner
