import Reckoner.Proofs.Expr.ReadAt
import Reckoner.Proofs.Grammar.Acceptance

/-!
# The check of tokens with anything behind them

When the check goes through some tokens, it comes to a problem or to another state.  Which it is
depends on the tokens behind them in one way only: a name looks ahead for a bracket, and an opening
bracket behind the name of a function for a closing one.  `Scope.Carries` says what the check makes
of tokens whatever follows, as long as it starts with no bracket.

* `Scope.Carries.append` puts two such stretches one after the other.
* `Scope.carries_operand` and `Scope.carries_operator` are the tokens that are read by themselves,
  and the lemmas about names those with the brackets that a name looks ahead for.
-/

set_option autoImplicit false

namespace Reckoner

/-- What follows is no bracket, so that looking ahead makes no difference. -/
structure Unbracketed (tail : List Placed) : Prop where
  /-- It is not an opening bracket. -/
  opening : ∀ position us, tail ≠ ⟨.opening, position⟩ :: us
  /-- It is not a closing bracket. -/
  closing : ∀ position us, tail ≠ ⟨.closing, position⟩ :: us

theorem unbracketed_nil : Unbracketed [] := ⟨fun _ _ ↦ by simp, fun _ _ ↦ by simp⟩

theorem unbracketed_cons {t : Placed} {ts : List Placed} (hopening : t.token ≠ .opening)
    (hclosing : t.token ≠ .closing) : Unbracketed (t :: ts) where
  opening _ _ heq := hopening (congrArg Placed.token (List.cons.inj heq).1)
  closing _ _ heq := hclosing (congrArg Placed.token (List.cons.inj heq).1)

/-- What comes before anything starts with it. -/
theorem Placed.append_ne {token : Token} {ts tail : List Placed}
    (h : ∀ position us, ts ≠ ⟨token, position⟩ :: us)
    (htail : ∀ position us, tail ≠ ⟨token, position⟩ :: us) :
    ∀ position us, ts ++ tail ≠ ⟨token, position⟩ :: us := by
  intro position us
  cases ts with
  | nil => exact htail position us
  | cons t ts =>
    intro heq
    exact h position ts (by rw [(List.cons.inj heq).1])

namespace Scope

variable {scope : Scope} {s s' : Progress} {ts us : List Placed} {result : Except Problem Progress}
  {position : Nat} {brackets : List Bracket} {start : Nat} {before : Before} {target : Bool}
  {token : Token} {problem : Problem}

/-- The first problem behind a problem or a state. -/
def problemBehind (scope : Scope) (stop : Nat) (result : Except Problem Progress)
    (tail : List Placed) : Option Problem :=
  match result with
  | .error problem => some problem
  | .ok s => scope.problemFrom stop s tail

/-- The check goes through tokens to a problem or to another state, whatever follows. -/
def Carries (scope : Scope) (s : Progress) (ts : List Placed)
    (result : Except Problem Progress) : Prop :=
  ∀ stop tail, Unbracketed tail →
    scope.problemFrom stop s (ts ++ tail) = scope.problemBehind stop result tail

theorem carries_nil (s : Progress) : scope.Carries s [] (.ok s) := fun _ _ _ ↦ rfl

/-- What the check makes of the tokens if nothing follows. -/
theorem Carries.problemFrom_eq (h : scope.Carries s ts result) (stop : Nat) :
    scope.problemFrom stop s ts = scope.problemBehind stop result [] := by
  rw [← h stop [] unbracketed_nil, List.append_nil]

/-- Behind tokens that were gone through come others, which start with no bracket. -/
theorem Carries.append (h : scope.Carries s ts (.ok s')) (hus : Unbracketed us)
    (h' : scope.Carries s' us result) : scope.Carries s (ts ++ us) result := by
  intro stop tail htail
  rw [List.append_assoc, h stop _ ⟨Placed.append_ne hus.opening htail.opening,
    Placed.append_ne hus.closing htail.closing⟩]
  exact h' stop tail htail

/-- A problem in the first tokens is one in all of them. -/
theorem Carries.append_error (h : scope.Carries s ts (.error problem)) (hus : Unbracketed us) :
    scope.Carries s (ts ++ us) (.error problem) := by
  intro stop tail htail
  rw [List.append_assoc]
  exact h stop _ ⟨Placed.append_ne hus.opening htail.opening,
    Placed.append_ne hus.closing htail.closing⟩

/-- A token that is no name is read by itself where an operand is expected. -/
theorem carries_operand (hname : ∀ text, token ≠ .name text)
    (hstep : Progress.operandStep ⟨brackets, start, .operand before⟩ before token position = .ok s')
    (h : scope.Carries s' ts result) :
    scope.Carries ⟨brackets, start, .operand before⟩ (⟨token, position⟩ :: ts) result := by
  intro stop tail htail
  rw [List.cons_append, problemFrom_operand hname, hstep]
  exact h stop tail htail

theorem carries_operand_error (hname : ∀ text, token ≠ .name text)
    (hstep : Progress.operandStep ⟨brackets, start, .operand before⟩ before token position =
      .error problem) :
    scope.Carries ⟨brackets, start, .operand before⟩ (⟨token, position⟩ :: ts) (.error problem) := by
  intro stop tail _
  rw [List.cons_append, problemFrom_operand hname, hstep]
  rfl

/-- Every token is read by itself where an operator is expected. -/
theorem carries_operator
    (hstep : Progress.operatorStep ⟨brackets, start, .operator target⟩ target token position =
      .ok s')
    (h : scope.Carries s' ts result) :
    scope.Carries ⟨brackets, start, .operator target⟩ (⟨token, position⟩ :: ts) result := by
  intro stop tail htail
  rw [List.cons_append, problemFrom_operator, hstep]
  exact h stop tail htail

theorem carries_operator_error
    (hstep : Progress.operatorStep ⟨brackets, start, .operator target⟩ target token position =
      .error problem) :
    scope.Carries ⟨brackets, start, .operator target⟩ (⟨token, position⟩ :: ts)
      (.error problem) := by
  intro stop tail _
  rw [List.cons_append, problemFrom_operator, hstep]
  rfl

/-! ## Names -/

section

variable {name : String} {f : Function} {opening closing : Nat}

theorem carries_callNone (hfind : scope.functions.find? name = some f) (harity : f.arity = 0)
    (h : scope.Carries ⟨brackets, start, .operator false⟩ ts result) :
    scope.Carries ⟨brackets, start, .operand before⟩
      (⟨.name name, position⟩ :: ⟨.opening, opening⟩ :: ⟨.closing, closing⟩ :: ts) result := by
  intro stop tail htail
  simpa [problemFrom, hfind, harity, Progress.afterOperand] using h stop tail htail

theorem carries_noArguments (hfind : scope.functions.find? name = some f) (harity : f.arity ≠ 0) :
    scope.Carries ⟨brackets, start, .operand before⟩
      (⟨.name name, position⟩ :: ⟨.opening, opening⟩ :: ⟨.closing, closing⟩ :: ts)
      (.error ⟨.noArguments, closing⟩) := by
  intro stop tail _
  simp [problemFrom, hfind, harity, problemBehind]

theorem carries_call (hfind : scope.functions.find? name = some f)
    (hclosing : ∀ position us, ts ≠ ⟨.closing, position⟩ :: us)
    (h : scope.Carries ⟨.call :: brackets, start, .operand .opening⟩ ts result) :
    scope.Carries ⟨brackets, start, .operand before⟩
      (⟨.name name, position⟩ :: ⟨.opening, opening⟩ :: ts) result := by
  intro stop tail htail
  have hbehind := Placed.append_ne hclosing htail.closing
  simpa [problemFrom, hfind, hbehind, Progress.afterOpening] using h stop tail htail

theorem carries_noBracket (hfind : scope.functions.find? name = some f)
    (hopening : ∀ position us, ts ≠ ⟨.opening, position⟩ :: us) :
    scope.Carries ⟨brackets, start, .operand before⟩ (⟨.name name, position⟩ :: ts)
      (.error ⟨.functionWithoutBracket, position + name.length⟩) := by
  intro stop tail htail
  have hbehind := Placed.append_ne hopening htail.opening
  simp [problemFrom, hfind, hbehind, problemBehind]

theorem carries_variableCalled (hfind : scope.functions.find? name = none)
    (hhas : scope.variables.has name = true) :
    scope.Carries ⟨brackets, start, .operand before⟩
      (⟨.name name, position⟩ :: ⟨.opening, opening⟩ :: ts)
      (.error ⟨.variableCalled, opening⟩) := by
  intro stop tail _
  simp [problemFrom, hfind, hhas, problemBehind]

theorem carries_unknownCall (hfind : scope.functions.find? name = none)
    (hhas : scope.variables.has name = false)
    (h : scope.Carries ⟨.call :: brackets, start, .operand .opening⟩ ts result) :
    scope.Carries ⟨brackets, start, .operand before⟩
      (⟨.name name, position⟩ :: ⟨.opening, opening⟩ :: ts) result := by
  intro stop tail htail
  simpa [problemFrom, hfind, hhas, Progress.afterOpening] using h stop tail htail

theorem carries_name (hfind : scope.functions.find? name = none)
    (hopening : ∀ position us, ts ≠ ⟨.opening, position⟩ :: us)
    (h : scope.Carries ⟨brackets, start, .operator before.allowsTarget⟩ ts result) :
    scope.Carries ⟨brackets, start, .operand before⟩ (⟨.name name, position⟩ :: ts) result := by
  intro stop tail htail
  have hbehind := Placed.append_ne hopening htail.opening
  simpa [problemFrom, hfind, hbehind, Progress.afterOperand] using h stop tail htail

end

end Scope

end Reckoner
