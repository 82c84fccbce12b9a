import Reckoner.CompileError
import Reckoner.Expr.Code
import Reckoner.Scope
import Reckoner.Token

/-!
# Reading expressions

`Scope.read` reads the tokens of a text once, from left to right, into a tree.  It keeps what waits
for an operand: assignments, operators with their left operands, and signs, each binding tighter
than the one outside it.  An operator first closes what binds at least as tightly as itself, so that
operators of one strength group to the left; powers and assignments group to the right because they
close less.  An opening bracket puts all that waits aside until the bracket is closed.

An operand nests as deeply as there are brackets and right sides of powers around it, plus one.

`Scope.compile` reads a text and translates it.
-/

set_option autoImplicit false

namespace Reckoner

/-! ## What waits for an operand -/

/-- Something that waits for an operand on its right. -/
inductive Pending where
  | assign (target : Reference)
  | binary (op : Operator) (position : Nat) (left : Expr)
  | sign (position : Nat)
  deriving Inhabited

/-- How tightly an operator binds. -/
def Operator.strength : Operator → Nat
  | add | sub => 1
  | mul | div | mod => 2
  | pow => 4

/-- The least strength that an operator closes when it comes.  A power closes nothing. -/
def Operator.closes : Operator → Nat
  | pow => 5
  | op => op.strength

namespace Pending

/-- How tightly something that waits binds: an assignment least, a sign between products and
powers. -/
def strength : Pending → Nat
  | assign _ => 0
  | binary op _ _ => op.strength
  | sign _ => 3

/-- Gives something that waits its operand. -/
def complete : Pending → Expr → Expr
  | assign target, e => .assign target e
  | binary op position left, e => .binary op position left e
  | sign position, e => .negate position e

/-- Whether something that waits makes its operand nest more deeply. -/
def deepens : Pending → Bool
  | binary .pow _ _ => true
  | _ => false

/-- Completes all that binds at least as tightly as `least`, from the inside. -/
def close (least : Nat) : List Pending → Expr → Expr × List Pending
  | [], e => (e, [])
  | p :: ps, e => if least ≤ p.strength then close least ps (p.complete e) else (e, p :: ps)

/-- Completes everything. -/
def closeAll (ps : List Pending) (e : Expr) : Expr := ps.foldl (fun e p => p.complete e) e

/-- How much more deeply an operand nests for what waits for it. -/
def depth (ps : List Pending) : Nat := ps.countP (·.deepens)

end Pending

/-- A bracket that is open. -/
inductive Opener where
  | group (position : Nat)
  | call (function : Function) (position : Nat)
  deriving DecidableEq, Repr, Inhabited

/-- An open bracket, the items in it that are complete, and what waits for it to be closed. -/
structure Enclosure where
  opener : Opener
  items : List Expr
  pending : List Pending
  deriving Inhabited

/-- How much more deeply an operand nests for the brackets around it. -/
def Enclosure.depth : List Enclosure → Nat
  | [] => 0
  | enclosure :: rest => 1 + Pending.depth enclosure.pending + Enclosure.depth rest

/-- What the reader expects next. -/
inductive Awaited where
  /-- An operand; `signed` tells whether a sign stands before it. -/
  | operand (signed : Bool)
  /-- An operator, after the operand `e`. -/
  | operator (e : Expr)
  deriving Inhabited

/-- The state of the reader: the statements that are complete, the open brackets, the innermost
first, what waits inside the innermost bracket, and what is expected next. -/
structure Reading where
  finished : List Finished
  enclosures : List Enclosure
  pending : List Pending
  awaited : Awaited
  deriving Inhabited

namespace Reading

/-- The state at the start of a text. -/
def initial : Reading := ⟨[], [], [], .operand false⟩

/-- How deeply the next operand nests. -/
def depth (s : Reading) : Nat :=
  1 + Pending.depth s.pending + Enclosure.depth s.enclosures

/-- The state after an operand. -/
def afterOperand (s : Reading) (e : Expr) : Reading := { s with awaited := .operator e }

/-- The state after something that waits for an operand. -/
def waitFor (s : Reading) (pending : List Pending) : Reading :=
  { s with pending, awaited := .operand false }

/-- The state after a sign. -/
def afterSign (s : Reading) (position : Nat) : Reading :=
  { s with pending := .sign position :: s.pending, awaited := .operand true }

/-- The state after an opening bracket. -/
def enclose (s : Reading) (opener : Opener) : Reading :=
  ⟨s.finished, ⟨opener, [], s.pending⟩ :: s.enclosures, [], .operand false⟩

/-- Reads a binary operator after the operand `e`. -/
def operatorStep (s : Reading) (e : Expr) (op : Operator) (position : Nat) : Reading :=
  let (left, pending) := Pending.close op.closes s.pending e
  s.waitFor (.binary op position left :: pending)

/-- Reads an equals sign after the operand `e`. -/
def equalsStep (s : Reading) (e : Expr) : Except CompileError Reading :=
  let (target, pending) := Pending.close 1 s.pending e
  match target.target? with
  | some reference => .ok (s.waitFor (.assign reference :: pending))
  | none => .error ⟨.badTarget, target.start⟩

/-- Reads a comma after the operand `e`: it ends a statement or an item in brackets. -/
def commaStep (s : Reading) (e : Expr) (position : Nat) : Reading :=
  let item := Pending.closeAll s.pending e
  match s.enclosures with
  | [] => ⟨s.finished ++ [⟨item, position⟩], [], [], .operand false⟩
  | enclosure :: rest =>
    ⟨s.finished, { enclosure with items := enclosure.items ++ [item] } :: rest, [],
      .operand false⟩

/-- The expression that a bracket with its items makes. -/
def closeBracket (opener : Opener) (items : List Expr) : Except CompileError Expr :=
  match opener, items with
  | .group position, [item] => .ok (.group position item)
  | .group position, _ => .error ⟨.notOneValue, position⟩
  | .call f position, items =>
    if items.length = f.arity then .ok (.call f position items)
    else .error ⟨.wrongArity f.name f.arity items.length, position⟩

/-- Reads a closing bracket after the operand `e`. -/
def closingStep (s : Reading) (e : Expr) (position : Nat) : Except CompileError Reading :=
  match s.enclosures with
  | [] => .error ⟨.unexpectedCharacter ')', position⟩
  | enclosure :: rest => do
    let operand ← closeBracket enclosure.opener
      (enclosure.items ++ [Pending.closeAll s.pending e])
    return ⟨s.finished, rest, enclosure.pending, .operator operand⟩

/-- Reads a token after the operand `e`. -/
def operatorTokenStep (s : Reading) (e : Expr) (token : Token) (position : Nat) :
    Except CompileError Reading :=
  match token with
  | .operator op => .ok (s.operatorStep e op position)
  | .equals => s.equalsStep e
  | .comma => .ok (s.commaStep e position)
  | .closing => s.closingStep e position
  | token =>
    .error (if s.enclosures.isEmpty then ⟨.unexpectedCharacter token.firstChar, position⟩
      else ⟨.unterminatedBracket, position⟩)

/-- Reads a token other than a name where an operand is expected. -/
def operandTokenStep (s : Reading) (signed : Bool) (token : Token) (position : Nat) :
    Except CompileError Reading :=
  match token with
  | .number numeral => .ok (s.afterOperand (.number numeral position))
  | .opening => .ok (s.enclose (.group position))
  | .operator .sub =>
    if signed then .error ⟨.unexpectedCharacter '-', position⟩ else .ok (s.afterSign position)
  | token => .error ⟨.unexpectedCharacter token.firstChar, position⟩

/-- Whether an operand may stand here.  A sign and its operand are one. -/
def checkDepth (s : Reading) (limit : Int) (signed : Bool) (position : Nat) :
    Except CompileError Unit :=
  if !signed && decide (limit < s.depth) then .error ⟨.tooDeep limit, position⟩ else .ok ()

/-- What the text is when it ends after the operand `e`. -/
def finish (s : Reading) (e : Expr) (stop : Nat) : Except CompileError Sequence :=
  match s.enclosures with
  | [] => .ok ⟨s.finished, Pending.closeAll s.pending e⟩
  | _ => .error ⟨.unterminatedBracket, stop⟩

end Reading

namespace Scope

/-- Reads the tokens that follow a state.  `stop` is the end of the text. -/
def readFrom (scope : Scope) (stop : Nat) :
    Reading → List Placed → Except CompileError Sequence
  | s, [] =>
    match s.awaited with
    | .operand signed =>
      match s.checkDepth scope.limit signed stop with
      | .ok () => .error ⟨.unexpectedEnd, stop⟩
      | .error e => .error e
    | .operator e => s.finish e stop
  | s, ⟨token, position⟩ :: rest =>
    match s.awaited with
    | .operand signed =>
      match s.checkDepth scope.limit signed position, token with
      | .error e, _ => .error e
      | .ok (), .name text =>
        match scope.meaning text, rest with
        | .function f, ⟨.opening, _⟩ :: ⟨.closing, _⟩ :: rest =>
          match Reading.closeBracket (.call f position) [] with
          | .ok operand => readFrom scope stop (s.afterOperand operand) rest
          | .error e => .error e
        | .function f, ⟨.opening, _⟩ :: rest =>
          readFrom scope stop (s.enclose (.call f position)) rest
        | .function f, _ => .error ⟨.noBracket f.name, position + text.length⟩
        | .variable slot, rest =>
          readFrom scope stop (s.afterOperand (.name ⟨text, slot, position⟩)) rest
        | .unknown, _ => .error ⟨.unknownName text (scope.similar text), position⟩
      | .ok (), token =>
        match s.operandTokenStep signed token position with
        | .ok s => readFrom scope stop s rest
        | .error e => .error e
    | .operator e =>
      match s.operatorTokenStep e token position with
      | .ok s => readFrom scope stop s rest
      | .error e => .error e

/-- Reads a text. -/
def read (scope : Scope) (text : String) : Except CompileError Sequence :=
  scope.readFrom text.length .initial (Placed.scan 0 text.toList)

/-- Compiles a text. -/
def compile (scope : Scope) (text : String) : Except CompileError Program :=
  (scope.read text).map (·.program text)

end Scope

end Reckoner
