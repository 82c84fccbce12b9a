import Reckoner.Proofs.Expr.Resolution
import Mathlib.Order.Nat

/-!
# Descending through the levels of precedence

An expression can also be read by one function for each level of precedence.  A function first calls
that of the next tighter level, which starts at the same character, and then reads the operators of
its own level; only elements, operators and brackets move on in the text.  Code is emitted at once,
behind the code so far, and changed afterwards where a sign or an assignment turns up: no tree is
built.  The depth of the stack and the greatest depth so far are counted along (`Emitted`).  What is
taken out again leaves the greatest depth as it is, so that the target of an assignment counts as if
it were read.

`Descent.descend` reads a whole text in this way.  What makes the functions end is in their types: a
place that is returned is further on than the place that was started from, and still in the text
(`Advance`).  So calls either move on, or stay at their place and go to a tighter level.

The functions look at characters and instructions that might not be there, and at signs before
constants that might have none.  `Halt` has these ways to end besides the refusal of a text.
-/

set_option autoImplicit false

namespace Reckoner

open Decimal

/-! ## What a function returns -/

/-- Why a descent ends without a program. -/
inductive Halt where
  /-- The text is refused, at a place of it. -/
  | refused (error : CompileError)
  /-- A character or an instruction is asked for that is not there. -/
  | outOfRange
  /-- A sign stands before a constant that has no opposite. -/
  | textNegated
  /-- The code of the whole text leaves so many values, and not one. -/
  | valuesLeft (count : Int)
  deriving DecidableEq, Inhabited

/-- What was emitted so far. -/
structure Emitted where
  /-- The instructions. -/
  code : Code
  /-- The number of values that they leave on the stack. -/
  depth : Int
  /-- The greatest such number at any time. -/
  deepest : Int

namespace Emitted

/-- Nothing was emitted. -/
def nothing : Emitted := ⟨[], 0, 0⟩

/-- Emits an instruction. -/
def emit (emitted : Emitted) (i : Instruction) : Emitted where
  code := emitted.code ++ [i]
  depth := emitted.depth + i.operation.effect
  deepest := max emitted.deepest (emitted.depth + i.operation.effect)

/-- Takes the last instruction out again. -/
def popLast (emitted : Emitted) : Emitted where
  code := emitted.code.dropLast
  depth := emitted.depth - emitted.code.getLast?.elim 0 (·.operation.effect)
  deepest := emitted.deepest

/-- Puts a constant in the place of the last instruction, which is a constant as well. -/
def changeLast (emitted : Emitted) (value : Value) (position : Int) : Emitted :=
  { emitted with code := emitted.code.dropLast ++ [⟨.constant value, position⟩] }

end Emitted

/-- What was emitted so far, and a place further on in the text. -/
structure Advance (text : List Char) (index : Nat) where
  /-- What was emitted so far. -/
  emitted : Emitted
  /-- The place behind all that was read. -/
  stop : Nat
  /-- Something was read. -/
  lt : index < stop
  /-- The place is in the text or at its end. -/
  le : stop ≤ text.length

/-- Where there is a character, the text goes on. -/
theorem succ_le_of_getElem? {text : List Char} {index : Nat} {c : Char}
    (h : text[index]? = some c) : index + 1 ≤ text.length :=
  (List.getElem?_eq_some_iff.1 h).1

/-- Behind a character less is left of the text. -/
theorem left_lt_of_getElem? {text : List Char} {index : Nat} {c : Char}
    (h : text[index]? = some c) : text.length - (index + 1) < text.length - index := by
  have := succ_le_of_getElem? h
  omega

namespace Advance

variable {text : List Char} {index : Nat}

/-- Less is left of the text. -/
theorem left_lt (a : Advance text index) : text.length - a.stop < text.length - index := by
  have := a.lt
  have := a.le
  omega

/-- The same place, seen from further back. -/
def since {start : Nat} (a : Advance text index) (h : start ≤ index) : Advance text start :=
  ⟨a.emitted, a.stop, Nat.lt_of_le_of_lt h a.lt, a.le⟩

/-- What was read behind one character more. -/
def behind (a : Advance text index) (b : Advance text (a.stop + 1)) : Advance text index :=
  b.since (Nat.le_of_lt (Nat.lt_succ_of_lt a.lt))

/-- Something else was emitted up to the same place. -/
def writing (a : Advance text index) (emitted : Emitted) : Advance text index :=
  { a with emitted }

/-- One instruction more. -/
def emit (a : Advance text index) (i : Instruction) : Advance text index :=
  a.writing (a.emitted.emit i)

/-- One character more. -/
def past (a : Advance text index) {c : Char} (h : text[a.stop]? = some c) : Advance text index :=
  ⟨a.emitted, a.stop + 1, Nat.lt_succ_of_lt a.lt, succ_le_of_getElem? h⟩

end Advance

/-- The place behind a lexeme that stands in a text. -/
def Advance.lexeme {text lexeme rest : List Char} {index : Nat}
    (h : lexeme ++ rest = text.drop index ∧ lexeme ≠ []) (emitted : Emitted) :
    Advance text index where
  emitted
  stop := index + lexeme.length
  lt := Nat.lt_add_of_pos_right (List.length_pos_iff.2 h.2)
  le := by
    have hlength := congrArg List.length h.1
    have hpos := List.length_pos_iff.2 h.2
    rw [List.length_append, List.length_drop] at hlength
    omega

/-- Splits the name off that a text starts with. -/
def takeName? : List Char → Option (List Char × List Char)
  | [] => none
  | c :: cs =>
    if isNameStart c then some (c :: cs.takeWhile isNamePart, cs.dropWhile isNamePart) else none

/-- Nothing is lost when a name is split off, and a name is not empty. -/
theorem takeName?_append {cs name rest : List Char} (h : takeName? cs = some (name, rest)) :
    name ++ rest = cs ∧ name ≠ [] := by
  cases cs with
  | nil => cases h
  | cons c cs =>
    rw [takeName?] at h
    split at h
    · cases h
      simp
    · cases h

/-! ## Levels -/

namespace Level

/-- How many levels are tighter, and one more. -/
def rank : Level → Nat
  | statement => 6
  | sum => 5
  | product => 4
  | signed => 3
  | power => 2
  | element => 1

/-- What stands to the right of an operator of a level. -/
def right : Level → Level
  | sum => product
  | _ => signed

end Level

/-- The operator of a level that stands at a place. -/
def operatorAt? (text : List Char) (index : Nat) (level : Level) : Option Operator :=
  (text[index]?.bind Operator.ofChar?).filter (·.level = level)

theorem operatorAt?_eq_some {text : List Char} {index : Nat} {level : Level} {op : Operator} :
    operatorAt? text index level = some op ↔ text[index]? = some op.symbol ∧ op.level = level := by
  rw [operatorAt?, Option.filter_eq_some_iff, Option.bind_eq_some_iff, decide_eq_true_eq]
  refine and_congr_left fun _ ↦ ⟨fun ⟨c, hc, hop⟩ ↦ ?_, fun h ↦ ⟨_, h, Operator.ofChar?_symbol op⟩⟩
  rw [hc, Operator.symbol_of_ofChar? hop]

/-! ## The functions -/

/-- Puts a sign behind what was emitted, as `negateCode` does, but looks for the last instruction
and for the kind of a constant. -/
def negated (position : Nat) (emitted : Emitted) : Except Halt Emitted :=
  match emitted.code.getLast? with
  | none => .error .outOfRange
  | some ⟨.constant (.text _), _⟩ => .error .textNegated
  | some ⟨.constant value, _⟩ => .ok (emitted.changeLast value.opposite position)
  | some ⟨.negate, _⟩ => .ok emitted.popLast
  | some _ => .ok (emitted.emit ⟨.negate, position⟩)

/-- Reads the closing bracket of a call and counts the arguments, before which the stack had the
given depth. -/
def closeCall {text : List Char} {index : Nat} (f : Function) (depth : Int) (start : Nat)
    (a : Advance text index) : Except Halt (Advance text index) :=
  if h : text[a.stop]? = some ')' then
    let count := a.emitted.depth - depth
    if count = f.arity then .ok ((a.past h).emit ⟨.call f.code f.arity, start⟩)
    else .error (.refused ⟨.wrongArity f.name f.arity count.toNat, start⟩)
  else .error (.refused ⟨.unterminatedBracket, a.stop⟩)

namespace Descent

variable (scope : Scope) (text : List Char)

mutual

/-- Reads statements with commas between them.  In a sequence the value of each but the last one is
dropped; the arguments of a function all stay. -/
def statements (sequence : Bool) (depth : Nat) (emitted : Emitted) (index : Nat) :
    Except Halt (Advance text index) := do
  let a ← term .statement depth emitted index
  further sequence depth a
termination_by (text.length - index, 7)
decreasing_by
  · exact .right _ (by decide)
  · exact .left _ _ a.left_lt

/-- Reads the statements that follow one. -/
def further (sequence : Bool) (depth : Nat) {index : Nat} (a : Advance text index) :
    Except Halt (Advance text index) :=
  if h : text[a.stop]? = some ',' then do
    let emitted := if sequence then a.emitted.emit ⟨.discard, a.stop⟩ else a.emitted
    let b ← term .statement depth emitted (a.stop + 1)
    further sequence depth (a.behind b)
  else .ok a
termination_by (text.length - a.stop, 0)
decreasing_by
  · exact .left _ _ (left_lt_of_getElem? h)
  · exact .left _ _ (b.left_lt.trans (left_lt_of_getElem? h))

/-- Reads a term of a level. -/
def term (level : Level) (depth : Nat) (emitted : Emitted) (index : Nat) :
    Except Halt (Advance text index) :=
  match level with
  | .statement => do
    let a ← term .sum depth emitted index
    if h : text[a.stop]? = some '=' then
      match a.emitted.code.drop emitted.code.length with
      | [⟨.load slot, position⟩] => do
        let b ← term .statement depth a.emitted.popLast (a.stop + 1)
        return a.behind (b.emit ⟨.store slot, position⟩)
      | _ => .error (.refused ⟨.badTarget, index⟩)
    else return a
  | .sum => do
    let a ← term .product depth emitted index
    chain .sum depth a
  | .product => do
    let a ← term .signed depth emitted index
    chain .product depth a
  | .signed => do
    (scope.checkDepth depth index).mapError .refused
    if text[index]? = some '-' then
      let a ← term .power depth emitted (index + 1)
      return (a.writing (← negated index a.emitted)).since (Nat.le_succ index)
    else term .power depth emitted index
  | .power => do
    let a ← term .element depth emitted index
    chain .power depth a
  | .element =>
    if text[index]? = some '(' then do
      let a ← statements false (depth + 1) emitted (index + 1)
      if h : text[a.stop]? = some ')' then
        if a.emitted.depth = emitted.depth + 1 then
          return (a.past h).since (Nat.le_succ index)
        else .error (.refused ⟨.notOneValue, index⟩)
      else .error (.refused ⟨.unterminatedBracket, a.stop⟩)
    else
      match hnumeral : takeNumeral? (text.drop index) with
      | some (numeral, _) =>
        .ok (.lexeme (takeNumeral?_append hnumeral)
          (emitted.emit ⟨.constant (Expr.numberValue numeral), index⟩))
      | none =>
        match hname : takeName? (text.drop index) with
        | some (name, _) =>
          match scope.meaning (String.ofList name) with
          | .function f => do
            let a ← call f depth emitted index (index + name.length)
            return a.since (Nat.le_add_right ..)
          | .variable slot =>
            .ok (.lexeme (takeName?_append hname) (emitted.emit ⟨.load slot, index⟩))
          | .unknown =>
            .error (.refused ⟨.unknownName (String.ofList name)
              (scope.similar (String.ofList name)), index⟩)
        | none =>
          match text[index]? with
          | some c => .error (.refused ⟨.unexpectedCharacter c, index⟩)
          | none => .error (.refused ⟨.unexpectedEnd, index⟩)
termination_by (text.length - index, level.rank)
decreasing_by
  all_goals first
    -- The same place at a tighter level.
    | exact .right _ (by decide)
    -- Behind a term, or a character or a name further on.
    | exact .left _ _ (Advance.left_lt _)
    | exact .left _ _ (left_lt_of_getElem? ‹_›)
    | exact .left _ _ ((left_lt_of_getElem? h).trans a.left_lt)
    | exact .left _ _ (Advance.lexeme (takeName?_append hname) emitted).left_lt

/-- Reads the operators of a level that follow a term, and what stands to the right of them. -/
def chain (level : Level) (depth : Nat) {index : Nat} (a : Advance text index) :
    Except Halt (Advance text index) :=
  match h : operatorAt? text a.stop level with
  | some op => do
    let b ← term level.right (if op = .pow then depth + 1 else depth) a.emitted (a.stop + 1)
    chain level depth (a.behind (b.emit ⟨.binary op, a.stop⟩))
  | none => .ok a
termination_by (text.length - a.stop, 0)
decreasing_by
  · exact .left _ _ (left_lt_of_getElem? (operatorAt?_eq_some.1 h).1)
  · exact .left _ _ (b.left_lt.trans (left_lt_of_getElem? (operatorAt?_eq_some.1 h).1))

/-- Reads the arguments of a function behind its name, which stands at `start`. -/
def call (f : Function) (depth : Nat) (emitted : Emitted) (start index : Nat) :
    Except Halt (Advance text index) :=
  if hopening : text[index]? = some '(' then
    if text[index + 1]? = some ')' then
      closeCall f emitted.depth start
        ⟨emitted, index + 1, Nat.lt_succ_self index, succ_le_of_getElem? hopening⟩
    else do
      let a ← statements false (depth + 1) emitted (index + 1)
      closeCall f emitted.depth start (a.since (Nat.le_succ index))
  else .error (.refused ⟨.noBracket f.name, index⟩)
termination_by (text.length - index, 0)
decreasing_by exact .left _ _ (left_lt_of_getElem? hopening)

end

/-- Compiles a text. -/
def descend (text : String) : Except Halt Program := do
  let a ← statements scope text.toList true 1 .nothing 0
  if a.stop = text.length then
    if a.emitted.depth = 1 then return ⟨text, a.emitted.code, a.emitted.deepest.toNat⟩
    else .error (.valuesLeft a.emitted.depth)
  else
    match text.toList[a.stop]? with
    | some c => .error (.refused ⟨.unexpectedCharacter c, a.stop⟩)
    | none => .error .outOfRange

end Descent

end Reckoner
