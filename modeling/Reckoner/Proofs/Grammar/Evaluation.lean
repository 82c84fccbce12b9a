import Reckoner.Builtin
import Reckoner.Expr.Basic
import Reckoner.Operator.Meaning
import Reckoner.Proofs.Grammar.Term
import Reckoner.Proofs.Program.Execution
import Reckoner.Proofs.Value.Sign

/-!
# The value of a tree

`Term.eval` says what an expression means, without slots, codes or a stack: variables and functions
go by their names.

* Operands and arguments are evaluated from the left.
* An assignment evaluates its value and then gives it to its target, which is not read.
* What fails is an operator, a sign, a call or a name, and the fault tells where that stands.
* `Script.eval` drops the value of each statement but the last.

`Term.cancelSigns` takes pairs of signs out of a tree.  Two signs are a pair if one of them stands
directly before the other, brackets aside; of several signs the inner ones make up pairs first, so
that it is the outermost that stays.  A term that has a value keeps it (`Script.eval_cancelSigns`):
a pair of signs makes a difference only before a text, of which there is no negative.
-/

set_option autoImplicit false

namespace Reckoner

/-- What a step at a position comes to. -/
def Outcome.located {α : Type} (position : Nat) (result : Except Fault α) (env : Environment) :
    Outcome α :=
  (result.mapError (·.atPosition position), env)

namespace Term

/-- The value of the function of a name.  There is none for other names. -/
def callNamed (name : String) (values : List Value) : Except Fault Value :=
  match Builtin.ofName? name with
  | some function => function.apply values
  | none => .error .outOfBounds

mutual

/-- The value of a term.  A name that is not defined has none. -/
def eval : Term → Environment → Outcome Value
  | number numeral _, env => (.ok (Expr.numberValue numeral), env)
  | name text _, env =>
    match env.get text with
    | .ok (value, env) => (.ok value, env)
    | .error _ => (.error .outOfBounds, env)
  | call text position arguments, env =>
    (evalAll arguments env).andThen fun values env ↦
      .located position (callNamed text values) env
  | group _ inner, env => inner.eval env
  | negate position operand, env =>
    (operand.eval env).andThen fun a env ↦
      .located position (a.negate.mapError .ofCause) env
  | binary op position left right, env =>
    (left.eval env).andThen fun a env ↦ (right.eval env).andThen fun b env ↦
      .located position ((op.apply a b).mapError .ofCause) env
  | assign target _ value, env =>
    (value.eval env).andThen fun a env ↦ (.ok a, env.put target a)

/-- The values of several terms. -/
def evalAll : List Term → Environment → Outcome (List Value)
  | [], env => (.ok [], env)
  | t :: ts, env =>
    (t.eval env).andThen fun a env ↦ (evalAll ts env).andThen fun as env ↦ (.ok (a :: as), env)

end

/-- What the sign of a term stands before, brackets aside. -/
def unsigned? : Term → Option Term
  | group _ inner => inner.unsigned?
  | negate _ operand => some operand
  | _ => none

/-- Puts a sign before a term, or takes its sign away. -/
def turn (position : Nat) (t : Term) : Term := t.unsigned?.getD (.negate position t)

mutual

/-- The term without its pairs of signs. -/
def cancelSigns : Term → Term
  | number numeral position => number numeral position
  | name text position => name text position
  | call text position arguments => call text position (cancelSignsOfAll arguments)
  | group position inner => group position inner.cancelSigns
  | negate position operand => turn position operand.cancelSigns
  | binary op position left right => binary op position left.cancelSigns right.cancelSigns
  | assign target position value => assign target position value.cancelSigns

/-- Several terms without their pairs of signs. -/
def cancelSignsOfAll : List Term → List Term
  | [] => []
  | t :: ts => t.cancelSigns :: cancelSignsOfAll ts

end

theorem evalAll_length {ts : List Term} {env env' : Environment} {values : List Value}
    (h : evalAll ts env = (.ok values, env')) : values.length = ts.length := by
  induction ts generalizing env values with
  | nil =>
    cases h
    rfl
  | cons t ts ih =>
    rw [evalAll] at h
    obtain ⟨a, env₁, _, h⟩ := Outcome.andThen_eq_ok h
    obtain ⟨as, env₂, hall, h⟩ := Outcome.andThen_eq_ok h
    cases h
    rw [List.length_cons, ih hall, List.length_cons]

theorem cancelSignsOfAll_length (ts : List Term) : (cancelSignsOfAll ts).length = ts.length := by
  induction ts with
  | nil => rfl
  | cons t ts ih => rw [cancelSignsOfAll, List.length_cons, ih, List.length_cons]

/-! ## What a pair of signs changes -/

/-- The value of a term with a sign is the negative of what the sign stands before. -/
theorem eval_of_unsigned? {t u : Term} (h : t.unsigned? = some u) {env env' : Environment}
    {b : Value} (heval : t.eval env = (.ok b, env')) :
    ∃ a, u.eval env = (.ok a, env') ∧ a.negate = .ok b := by
  induction t with
  | group _ inner ih => exact ih h heval
  | negate position operand =>
    cases h
    rw [eval] at heval
    obtain ⟨a, env₁, ha, heval⟩ := Outcome.andThen_eq_ok heval
    cases hnegate : a.negate with
    | error cause =>
      rw [hnegate] at heval
      cases heval
    | ok b' =>
      rw [hnegate] at heval
      cases heval
      exact ⟨a, ha, hnegate⟩
  | _ => cases h

theorem evalAll_cancelSigns {ts : List Term} {env env' : Environment} {values : List Value}
    (ih : ∀ t ∈ ts, ∀ {env env' : Environment} {a : Value}, t.eval env = (.ok a, env') →
      t.cancelSigns.eval env = (.ok a, env'))
    (h : evalAll ts env = (.ok values, env')) :
    evalAll (cancelSignsOfAll ts) env = (.ok values, env') := by
  induction ts generalizing env env' values with
  | nil => exact h
  | cons t ts ihts =>
    obtain ⟨iht, ih⟩ := List.forall_mem_cons.1 ih
    rw [evalAll] at h
    obtain ⟨a, env₁, ha, h⟩ := Outcome.andThen_eq_ok h
    obtain ⟨as, env₂, has, h⟩ := Outcome.andThen_eq_ok h
    rw [cancelSignsOfAll, evalAll, iht ha, Outcome.andThen_ok, ihts ih has]
    exact h

/-- **A term that has a value keeps it without its pairs of signs.** -/
theorem eval_cancelSigns (t : Term) : ∀ {env env' : Environment} {a : Value},
    t.eval env = (.ok a, env') → t.cancelSigns.eval env = (.ok a, env') := by
  induction t with
  | number | name => exact id
  | call text position arguments ih =>
    intro env env' a h
    rw [eval] at h
    obtain ⟨values, env₁, hvalues, h⟩ := Outcome.andThen_eq_ok h
    rw [cancelSigns, eval, evalAll_cancelSigns ih hvalues]
    exact h
  | group position inner ih => exact ih
  | negate position operand ih =>
    intro env env' a h
    rw [eval] at h
    obtain ⟨b, env₁, hb, h⟩ := Outcome.andThen_eq_ok h
    have hoperand := ih hb
    rw [cancelSigns, turn]
    cases hunsigned : operand.cancelSigns.unsigned? with
    | none =>
      rw [Option.getD_none, eval, hoperand]
      exact h
    | some u =>
      obtain ⟨c, hc, hnegate⟩ := eval_of_unsigned? hunsigned hoperand
      rw [Value.negate_negate hnegate] at h
      cases h
      exact hc
  | binary op position left right ihl ihr =>
    intro env env' a h
    rw [eval] at h
    obtain ⟨l, env₁, hl, h⟩ := Outcome.andThen_eq_ok h
    obtain ⟨r, env₂, hr, h⟩ := Outcome.andThen_eq_ok h
    rw [cancelSigns, eval, ihl hl, Outcome.andThen_ok, ihr hr]
    exact h
  | assign target position value ih =>
    intro env env' a h
    rw [eval] at h
    obtain ⟨b, env₁, hb, h⟩ := Outcome.andThen_eq_ok h
    rw [cancelSigns, eval, ih hb]
    exact h

end Term

namespace Script

/-- Evaluates statements for what they assign. -/
def evalFinished : List (Term × Nat) → Environment → Outcome Unit
  | [], env => (.ok (), env)
  | t :: ts, env => (t.1.eval env).andThen fun _ env ↦ evalFinished ts env

/-- The value of a text: that of its last statement, after the others. -/
def eval (s : Script) (env : Environment) : Outcome Value :=
  (evalFinished s.finished env).andThen fun _ env ↦ s.last.eval env

/-- The text without its pairs of signs. -/
def cancelSigns (s : Script) : Script :=
  ⟨s.finished.map fun t ↦ (t.1.cancelSigns, t.2), s.last.cancelSigns⟩

theorem evalFinished_cancelSigns {ts : List (Term × Nat)} {env env' : Environment}
    (h : evalFinished ts env = (.ok (), env')) :
    evalFinished (ts.map fun t ↦ (t.1.cancelSigns, t.2)) env = (.ok (), env') := by
  induction ts generalizing env with
  | nil => exact h
  | cons t ts ih =>
    rw [evalFinished] at h
    obtain ⟨a, env₁, ha, h⟩ := Outcome.andThen_eq_ok h
    rw [List.map_cons, evalFinished, t.1.eval_cancelSigns ha]
    exact ih h

/-- A text that has a value keeps it without its pairs of signs. -/
theorem eval_cancelSigns {s : Script} {env env' : Environment} {a : Value}
    (h : s.eval env = (.ok a, env')) : s.cancelSigns.eval env = (.ok a, env') := by
  rw [eval] at h
  obtain ⟨_, env₁, hfinished, h⟩ := Outcome.andThen_eq_ok h
  rw [eval, cancelSigns, evalFinished_cancelSigns hfinished]
  exact s.last.eval_cancelSigns h

end Script

end Reckoner
