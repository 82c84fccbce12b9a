import Reckoner.Expr.Basic
import Reckoner.Program.Basic

/-!
# The code of an expression

`Expr.code` translates an expression into instructions that push its value: operands and arguments
come before what is done with them.  A sign is worked into a constant, and a sign of a sign cancels
it, so that neither costs an instruction.  `Expr.plainCode` is the same without these savings.

`Expr.height` is the number of values that the code of an expression needs on the stack.
-/

set_option autoImplicit false

namespace Reckoner

/-- A constant with the opposite sign.  A numeral is never a text, which has none. -/
def Value.opposite : Value → Value
  | .scalar x => .scalar (-x)
  | .vector a => .vector (a.map (-·))
  | .text s => .text s

/-- Puts a sign at a position behind code.  If the code ends with a constant, the constant changes
its sign and takes the position; if it ends with a sign, both signs go. -/
def negateCode (position : Nat) (code : Code) : Code :=
  match code.getLast? with
  | some ⟨.constant value, _⟩ => code.dropLast ++ [⟨.constant value.opposite, position⟩]
  | some ⟨.negate, _⟩ => code.dropLast
  | _ => code ++ [⟨.negate, position⟩]

/-- A constant takes the sign. -/
theorem negateCode_constant (position : Nat) (init : Code) (value : Value) (origin : Int) :
    negateCode position (init ++ [⟨.constant value, origin⟩]) =
      init ++ [⟨.constant value.opposite, position⟩] := by
  simp [negateCode]

/-- A sign cancels the sign. -/
theorem negateCode_negate (position : Nat) (init : Code) (origin : Int) :
    negateCode position (init ++ [⟨.negate, origin⟩]) = init := by
  simp [negateCode]

/-- Behind all other code the sign is an instruction. -/
theorem negateCode_other (position : Nat) (init : Code) {operation : Operation} (origin : Int)
    (hconstant : ∀ value, operation ≠ .constant value) (hnegate : operation ≠ .negate) :
    negateCode position (init ++ [⟨operation, origin⟩]) =
      init ++ [⟨operation, origin⟩] ++ [⟨.negate, position⟩] := by
  cases operation <;> simp_all [negateCode]

namespace Expr

mutual

/-- The code of an expression. -/
def code : Expr → Code
  | number numeral position => [⟨.constant (numberValue numeral), position⟩]
  | name reference => [⟨.load reference.slot, reference.position⟩]
  | call function position arguments =>
    codeOfAll arguments ++ [⟨.call function.code function.arity, position⟩]
  | group _ inner => inner.code
  | negate position operand => negateCode position operand.code
  | binary op position left right => left.code ++ right.code ++ [⟨.binary op, position⟩]
  | assign target value => value.code ++ [⟨.store target.slot, target.position⟩]

/-- The code of several expressions, one after the other. -/
def codeOfAll : List Expr → Code
  | [] => []
  | e :: es => e.code ++ codeOfAll es

end

mutual

/-- The code of an expression in which every sign is an instruction. -/
def plainCode : Expr → Code
  | number numeral position => [⟨.constant (numberValue numeral), position⟩]
  | name reference => [⟨.load reference.slot, reference.position⟩]
  | call function position arguments =>
    plainCodeOfAll arguments ++ [⟨.call function.code function.arity, position⟩]
  | group _ inner => inner.plainCode
  | negate position operand => operand.plainCode ++ [⟨.negate, position⟩]
  | binary op position left right => left.plainCode ++ right.plainCode ++ [⟨.binary op, position⟩]
  | assign target value => value.plainCode ++ [⟨.store target.slot, target.position⟩]

/-- The code of several expressions in which every sign is an instruction. -/
def plainCodeOfAll : List Expr → Code
  | [] => []
  | e :: es => e.plainCode ++ plainCodeOfAll es

end

mutual

/-- The greatest number of values that the code of an expression has on the stack. -/
def height : Expr → Nat
  | number _ _ | name _ => 1
  | call _ _ arguments => max 1 (heightOfAll arguments)
  | group _ inner => inner.height
  | negate _ operand => operand.height
  | binary _ _ left right => max left.height (right.height + 1)
  | assign _ value => value.height

/-- The greatest number of values on the stack while several expressions leave one value each. -/
def heightOfAll : List Expr → Nat
  | [] => 0
  | e :: es => max e.height (heightOfAll es + 1)

end

end Expr

namespace Sequence

/-- The code of a sequence: the value of each statement but the last is dropped. -/
def code (s : Sequence) : Code :=
  s.finished.flatMap (fun f => f.statement.code ++ [⟨.discard, f.comma⟩]) ++ s.last.code

/-- The code of a sequence in which every sign is an instruction. -/
def plainCode (s : Sequence) : Code :=
  s.finished.flatMap (fun f => f.statement.plainCode ++ [⟨.discard, f.comma⟩]) ++ s.last.plainCode

/-- The greatest number of values that the code of a sequence has on the stack. -/
def height (s : Sequence) : Nat :=
  s.finished.foldl (fun n f => max n f.statement.height) s.last.height

/-- The program of a sequence that was read from a text. -/
def program (s : Sequence) (source : String) : Program := ⟨source, s.code, s.height⟩

end Sequence

end Reckoner
