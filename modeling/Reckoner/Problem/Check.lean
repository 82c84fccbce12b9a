import Reckoner.Problem.Basic
import Reckoner.Scope
import Reckoner.Text.Alphanumeric
import Reckoner.Token

/-!
# The structural check

`Scope.problem?` finds the first structural problem of a text.  It reads the tokens once, from left
to right, and remembers which brackets are open and what stands before the next token.

* A statement ends at a comma outside all brackets; at such a place an assignment has its targets
  one after the other at the start of the statement.
* A comma between brackets separates the arguments of a function; between other brackets it has no
  place.
* A name that stands for nothing may be called; whether there is such a function is not a question
  of structure.
-/

set_option autoImplicit false

namespace Reckoner

/-- A bracket that is open: around a term, or around the arguments of a function. -/
inductive Bracket where
  | group
  | call
  deriving DecidableEq, Repr, Inhabited

/-- What stands before an operand. -/
inductive Before where
  /-- The start of a statement, an opening bracket, or a comma between arguments. -/
  | opening
  | equals
  | operator
  /-- A minus sign. -/
  | sign
  deriving DecidableEq, Repr, Inhabited

/-- What the check expects next. -/
inductive Expected where
  | operand (before : Before)
  /-- An operator; `target` tells whether the operand before it can be assigned to. -/
  | operator (target : Bool)
  deriving DecidableEq, Repr, Inhabited

/-- The state of the check: the open brackets, the innermost first; the position at which the
present statement or assigned value starts; and what is expected next. -/
structure Progress where
  brackets : List Bracket
  start : Nat
  expected : Expected
  deriving DecidableEq, Repr, Inhabited

namespace Before

/-- Whether a name may be assigned to when it is the next operand. -/
def allowsTarget : Before → Bool
  | opening | equals => true
  | operator | sign => false

end Before

namespace Progress

/-- The state at the start of a text. -/
def initial : Progress := ⟨[], 0, .operand .opening⟩

/-- Whether no bracket is open. -/
def outside (s : Progress) : Bool := s.brackets.isEmpty

/-- The state after a complete operand. -/
def afterOperand (s : Progress) (target : Bool) : Progress :=
  { s with expected := .operator target }

/-- The state before an operand. -/
def beforeOperand (s : Progress) (before : Before) : Progress :=
  { s with expected := .operand before }

/-- The state after an opening bracket. -/
def afterOpening (s : Progress) (bracket : Bracket) : Progress :=
  ⟨bracket :: s.brackets, s.start, .operand .opening⟩

/-- What is wrong when an operand is expected and a statement, or the target of an assignment,
ends instead. -/
def flawOfEnd (s : Progress) (before : Before) (position : Nat) : Problem :=
  match before with
  | .opening => ⟨.noTermBeforeComma, s.start⟩
  | .equals => ⟨.noValue, s.start - 1⟩
  | .operator | .sign => ⟨.operatorEnds, position⟩

/-- What is wrong when a binary operator stands where an operand is expected. -/
def flawOfOperator (s : Progress) : Before → Flaw
  | .opening => .noLeftOperand
  | .equals => if s.outside then .noLeftOperand else .operatorAfterOperator
  | .operator | .sign => .operatorAfterOperator

/-- What is wrong when an equals sign stands where an operand is expected. -/
def flawOfEquals (s : Progress) (before : Before) : Flaw :=
  if s.outside then if before.allowsTarget then .noTarget else .operatorEnds
  else s.flawOfOperator before

/-- Reads a token other than a name where an operand is expected. -/
def operandStep (s : Progress) (before : Before) (token : Token) (position : Nat) :
    Except Problem Progress :=
  match token with
  | .number _ | .name _ => .ok (s.afterOperand false)
  | .opening => .ok (s.afterOpening .group)
  | .operator .sub =>
    if before = .sign then .error ⟨.operatorAfterOperator, position⟩
    else .ok (s.beforeOperand .sign)
  | .operator _ => .error ⟨s.flawOfOperator before, position⟩
  | .equals => .error ⟨s.flawOfEquals before, position⟩
  | .comma =>
    .error (if s.outside then s.flawOfEnd before position else ⟨.noTermBeforeComma, position⟩)
  | .closing =>
    .error ⟨if s.outside then .tooManyClosing else .noTermBeforeClosing, position⟩
  | .stray c => .error ⟨if c = '.' then .malformedNumber else .illegalCharacter c, position⟩

/-- Reads an equals sign after an operand. -/
def equalsStep (s : Progress) (target : Bool) (position : Nat) : Except Problem Progress :=
  if !target then .error ⟨.badTarget, if s.outside then s.start else position⟩
  else if s.outside then .ok ⟨[], position + 1, .operand .equals⟩
  else .ok (s.beforeOperand .equals)

/-- Reads a comma after an operand. -/
def commaStep (s : Progress) (position : Nat) : Except Problem Progress :=
  match s.brackets with
  | [] => .ok ⟨[], position + 1, .operand .opening⟩
  | .group :: _ => .error ⟨.commaOutsideArguments, position⟩
  | .call :: _ => .ok (s.beforeOperand .opening)

/-- Reads a closing bracket after an operand. -/
def closingStep (s : Progress) (position : Nat) : Except Problem Progress :=
  match s.brackets with
  | [] => .error ⟨.tooManyClosing, position⟩
  | _ :: brackets => .ok ⟨brackets, s.start, .operator false⟩

/-- Reads a token where an operator is expected. -/
def operatorStep (s : Progress) (target : Bool) (token : Token) (position : Nat) :
    Except Problem Progress :=
  match token with
  | .operator _ => .ok (s.beforeOperand .operator)
  | .equals => s.equalsStep target position
  | .comma => s.commaStep position
  | .closing => s.closingStep position
  | .opening => .error ⟨.noOperatorBeforeBracket, position⟩
  | .number _ | .name _ => .error ⟨.noOperator, position⟩
  | .stray c =>
    .error ⟨if Text.isAlphanumeric c || c == '.' then .noOperator else .illegalCharacter c,
      position⟩

/-- What is wrong with a text that ends in this state. -/
def atEnd (s : Progress) (stop : Nat) : Option Problem :=
  if !s.outside then some ⟨.unmatchedOpening, stop⟩
  else
    match s.expected with
    | .operand before => some (s.flawOfEnd before stop)
    | .operator _ => none

end Progress

namespace Scope

/-- The first problem in the tokens that follow a state.  `stop` is the end of the text. -/
def problemFrom (scope : Scope) (stop : Nat) : Progress → List Placed → Option Problem
  | s, [] => s.atEnd stop
  | s, ⟨token, position⟩ :: rest =>
    match s.expected, token with
    | .operand before, .name text =>
      match scope.functions.find? text, rest with
      | some f, ⟨.opening, _⟩ :: ⟨.closing, p⟩ :: rest =>
        if f.arity ≠ 0 then some ⟨.noArguments, p⟩
        else problemFrom scope stop (s.afterOperand false) rest
      | some _, ⟨.opening, _⟩ :: rest => problemFrom scope stop (s.afterOpening .call) rest
      | some _, _ => some ⟨.functionWithoutBracket, position + text.length⟩
      | none, ⟨.opening, p⟩ :: rest =>
        if scope.variables.has text then some ⟨.variableCalled, p⟩
        else problemFrom scope stop (s.afterOpening .call) rest
      | none, rest => problemFrom scope stop (s.afterOperand before.allowsTarget) rest
    | .operand before, token =>
      match s.operandStep before token position with
      | .ok s => problemFrom scope stop s rest
      | .error problem => some problem
    | .operator target, token =>
      match s.operatorStep target token position with
      | .ok s => problemFrom scope stop s rest
      | .error problem => some problem

/-- Whether an expression may end in a character. -/
def mayEnd (c : Char) : Bool := Text.isAlphanumeric c || c == ')' || c == ']' || c == '_'

/-- The first structural problem of a text. -/
def problem? (scope : Scope) (text : String) : Option Problem :=
  match text.toList.getLast? with
  | none => some ⟨.empty, 0⟩
  | some last =>
    if mayEnd last then
      scope.problemFrom text.length .initial (Placed.scan 0 text.toList)
    else some ⟨.symbolEnds, text.length - 1⟩

end Scope

end Reckoner
