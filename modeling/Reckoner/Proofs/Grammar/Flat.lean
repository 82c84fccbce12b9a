import Reckoner.Problem.Check

/-!
# What the structural check accepts

The structural check knows nothing of precedence.  `Derives` is its grammar: a chain is a list of
operands with operators between them, whichever they are, and an operand is a primary with at most
one minus sign before it.  Names matter in three places only: a function must be called, a variable
must not, and a function that takes arguments must not be called without any.

`Progress.Remains` tells, for each state of the check, what may follow.  `remains_of_problemFrom`
goes through the steps of the check, each of which is a step of a derivation, and
`derives_of_problem?` is the result for a text.
-/

set_option autoImplicit false

namespace Reckoner

/-! ## The grammar -/

/-- A part of an expression, as the structural check sees it. -/
inductive Symbol where
  | primary
  | operand
  /-- What follows the first operand of a chain. -/
  | tail
  | chain
  | statement
  /-- Statements with commas between them. -/
  | statements
  deriving DecidableEq, Repr

/-- A name may be called: it is a function, or stands for nothing. -/
def Scope.Callable (scope : Scope) (text : String) : Prop :=
  (scope.functions.find? text).isSome = true ∨ scope.variables.has text = false

/-- Tokens are a part of an expression. -/
inductive Derives (scope : Scope) : Symbol → List Placed → Prop
  | number {numeral : List Char} {position : Nat} :
    Derives scope .primary [⟨.number numeral, position⟩]
  | name {text : String} {position : Nat} (free : scope.functions.find? text = none) :
    Derives scope .primary [⟨.name text, position⟩]
  | group {position closing : Nat} {ts : List Placed} (inner : Derives scope .statement ts) :
    Derives scope .primary (⟨.opening, position⟩ :: (ts ++ [⟨.closing, closing⟩]))
  | callNone {text : String} {f : Function} {position opening closing : Nat}
    (find : scope.functions.find? text = some f) (arity : f.arity = 0) :
    Derives scope .primary [⟨.name text, position⟩, ⟨.opening, opening⟩, ⟨.closing, closing⟩]
  | call {text : String} {position opening closing : Nat} {ts : List Placed}
    (callable : scope.Callable text) (arguments : Derives scope .statements ts) :
    Derives scope .primary
      (⟨.name text, position⟩ :: ⟨.opening, opening⟩ :: (ts ++ [⟨.closing, closing⟩]))
  | plain {ts : List Placed} (primary : Derives scope .primary ts) : Derives scope .operand ts
  | signed {position : Nat} {ts : List Placed} (primary : Derives scope .primary ts) :
    Derives scope .operand (⟨.operator .sub, position⟩ :: ts)
  | nil : Derives scope .tail []
  | cons {op : Operator} {position : Nat} {ts us : List Placed}
    (operand : Derives scope .operand ts) (tail : Derives scope .tail us) :
    Derives scope .tail (⟨.operator op, position⟩ :: (ts ++ us))
  | chain {ts us : List Placed} (operand : Derives scope .operand ts)
    (tail : Derives scope .tail us) : Derives scope .chain (ts ++ us)
  | value {ts : List Placed} (chain : Derives scope .chain ts) : Derives scope .statement ts
  | assign {text : String} {position equals : Nat} {ts : List Placed}
    (free : scope.functions.find? text = none) (value : Derives scope .statement ts) :
    Derives scope .statement (⟨.name text, position⟩ :: ⟨.equals, equals⟩ :: ts)
  | last {ts : List Placed} (statement : Derives scope .statement ts) :
    Derives scope .statements ts
  | more {position : Nat} {ts us : List Placed} (statement : Derives scope .statement ts)
    (rest : Derives scope .statements us) :
    Derives scope .statements (ts ++ ⟨.comma, position⟩ :: us)

namespace Progress

/-! ## What may follow a state -/

variable {scope : Scope}

/-- Tokens that may stand where an operand is expected, up to the end of the statement. -/
def Starts (scope : Scope) : Before → List Placed → Prop
  | .opening, ts | .equals, ts => Derives scope .statement ts
  | .operator, ts => Derives scope .chain ts
  | .sign, ts => ∃ us vs, ts = us ++ vs ∧ Derives scope .primary us ∧ Derives scope .tail vs

/-- Tokens that may stand behind an operand, up to the end of the statement.  Behind a target there
may be an equals sign. -/
def Continues (scope : Scope) (target : Bool) (ts : List Placed) : Prop :=
  Derives scope .tail ts ∨
    target = true ∧ ∃ position us, ts = ⟨.equals, position⟩ :: us ∧ Derives scope .statement us

/-- Tokens that are nothing, or a comma with statements behind it. -/
def Further (scope : Scope) (ts : List Placed) : Prop :=
  ts = [] ∨ ∃ position us, ts = ⟨.comma, position⟩ :: us ∧ Derives scope .statements us

/-- Tokens that may stand behind a statement inside brackets, up to the end of the text. -/
def Closes (scope : Scope) : List Bracket → List Placed → Prop
  | [], ts => Further scope ts
  | bracket :: brackets, ts => ∃ ws position us vs,
    ts = ws ++ ⟨.closing, position⟩ :: (us ++ vs) ∧ Further scope ws ∧
      (bracket = .group → ws = []) ∧ Derives scope .tail us ∧ Closes scope brackets vs

/-- Tokens that may follow a state. -/
def Remains (scope : Scope) (s : Progress) (ts : List Placed) : Prop :=
  ∃ us vs, ts = us ++ vs ∧ Closes scope s.brackets vs ∧
    match s.expected with
    | .operand before => Starts scope before us
    | .operator target => Continues scope target us

/-- A statement and what follows it are statements. -/
theorem Further.statements {ts us : List Placed} (h : Further scope us)
    (hts : Derives scope .statement ts) : Derives scope .statements (ts ++ us) := by
  rcases h with rfl | ⟨position, us, rfl, hus⟩
  · rw [List.append_nil]
    exact .last hts
  · exact .more hts hus

/-- A primary may stand where an operand is expected, if what follows may stand behind it.  Only a
name can be a target, and only if there is neither operator nor sign before it. -/
theorem Remains.primary {brackets : List Bracket} {start start' : Nat} {before : Before}
    {target : Bool} {ts rest : List Placed}
    (h : Remains scope ⟨brackets, start', .operator target⟩ rest)
    (hts : Derives scope .primary ts)
    (htarget : target = true → before.allowsTarget = true ∧ ∃ text position,
      ts = [⟨.name text, position⟩] ∧ scope.functions.find? text = none) :
    Remains scope ⟨brackets, start, .operand before⟩ (ts ++ rest) := by
  obtain ⟨us, vs, rfl, hvs, hus⟩ := h
  refine ⟨ts ++ us, vs, (List.append_assoc ..).symm, hvs, ?_⟩
  rcases hus with hus | ⟨ht, position, us, rfl, hus⟩
  · have hchain : Derives scope .chain (ts ++ us) := .chain (.plain hts) hus
    cases before with
    | opening | equals => exact .value hchain
    | operator => exact hchain
    | sign => exact ⟨ts, us, rfl, hts, hus⟩
  · obtain ⟨hbefore, text, p, rfl, hfree⟩ := htarget ht
    have hassign : Derives scope .statement (⟨.name text, p⟩ :: ⟨.equals, position⟩ :: us) :=
      .assign hfree hus
    cases before with
    | opening | equals => exact hassign
    | operator | sign => cases hbefore

/-- What follows an opening bracket goes up to its closing bracket, and behind it as behind any
operand. -/
theorem Remains.bracket {bracket : Bracket} {brackets : List Bracket} {start : Nat}
    {rest : List Placed}
    (h : Remains scope ⟨bracket :: brackets, start, .operand .opening⟩ rest) :
    ∃ ts closing rest', rest = ts ++ ⟨.closing, closing⟩ :: rest' ∧ Derives scope .statements ts ∧
      (bracket = .group → Derives scope .statement ts) ∧
      Remains scope ⟨brackets, start, .operator false⟩ rest' := by
  obtain ⟨ts, _, rfl, ⟨ws, closing, us, vs, rfl, hfurther, hws, hus, hvs⟩, hts⟩ := h
  refine ⟨ts ++ ws, closing, us ++ vs, by simp, hfurther.statements hts, fun hgroup ↦ ?_,
    us, vs, rfl, hvs, .inl hus⟩
  rw [hws hgroup, List.append_nil]
  exact hts

/-- A call, up to the end of the text. -/
theorem Remains.call {brackets : List Bracket} {start : Nat} {before : Before} {text : String}
    {position opening : Nat} {rest : List Placed}
    (h : Remains scope ⟨.call :: brackets, start, .operand .opening⟩ rest)
    (hcallable : scope.Callable text) :
    Remains scope ⟨brackets, start, .operand before⟩
      (⟨.name text, position⟩ :: ⟨.opening, opening⟩ :: rest) := by
  obtain ⟨ts, closing, rest', rfl, hts, _, hrest'⟩ := h.bracket
  have hprimary : Remains scope ⟨brackets, start, .operand before⟩
      (⟨.name text, position⟩ :: ⟨.opening, opening⟩ :: (ts ++ [⟨.closing, closing⟩]) ++ rest') :=
    hrest'.primary (.call hcallable hts) (by simp)
  simpa using hprimary

/-! ## The steps of the check -/

theorem Remains.operandStep {brackets : List Bracket} {start : Nat} {before : Before}
    {s' : Progress} {token : Token} {position : Nat} {rest : List Placed}
    (hname : ∀ text, token ≠ .name text)
    (hstep : Progress.operandStep ⟨brackets, start, .operand before⟩ before token position = .ok s')
    (h : Remains scope s' rest) :
    Remains scope ⟨brackets, start, .operand before⟩ (⟨token, position⟩ :: rest) := by
  unfold Progress.operandStep at hstep
  split at hstep
  · next numeral =>
    cases hstep
    exact h.primary .number (by simp)
  · next text => exact absurd rfl (hname text)
  · cases hstep
    obtain ⟨ts, closing, rest', rfl, _, hts, hrest'⟩ := h.bracket
    have hprimary : Remains scope ⟨brackets, start, .operand before⟩
        (⟨.opening, position⟩ :: (ts ++ [⟨.closing, closing⟩]) ++ rest') :=
      hrest'.primary (.group (hts rfl)) (by simp)
    simpa using hprimary
  · split at hstep
    · cases hstep
    · next hsign =>
      cases hstep
      obtain ⟨_, vs, rfl, hvs, us, ws, rfl, hus, hws⟩ := h
      refine ⟨⟨.operator .sub, position⟩ :: (us ++ ws), vs, by simp, hvs, ?_⟩
      have hchain : Derives scope .chain (⟨.operator .sub, position⟩ :: us ++ ws) :=
        .chain (.signed hus) hws
      cases before with
      | opening | equals => exact .value hchain
      | operator => exact hchain
      | sign => exact absurd rfl hsign
  all_goals cases hstep

theorem Remains.equalsStep {brackets : List Bracket} {start : Nat} {target : Bool} {s' : Progress}
    {position : Nat} {rest : List Placed}
    (hstep : Progress.equalsStep ⟨brackets, start, .operator target⟩ target position = .ok s')
    (h : Remains scope s' rest) :
    Remains scope ⟨brackets, start, .operator target⟩ (⟨.equals, position⟩ :: rest) := by
  unfold Progress.equalsStep at hstep
  split at hstep
  · cases hstep
  · next htarget =>
    have hs' : s'.brackets = brackets ∧ s'.expected = .operand .equals := by
      split at hstep
      · next houtside =>
        cases hstep
        exact ⟨(List.isEmpty_iff.1 houtside).symm, rfl⟩
      · cases hstep
        exact ⟨rfl, rfl⟩
    obtain ⟨us, vs, rfl, hvs, hus⟩ := h
    rw [hs'.1] at hvs
    rw [hs'.2] at hus
    exact ⟨⟨.equals, position⟩ :: us, vs, rfl, hvs, .inr ⟨by simpa using htarget, position, us, rfl,
      hus⟩⟩

theorem Remains.commaStep {brackets : List Bracket} {start : Nat} {target : Bool} {s' : Progress}
    {position : Nat} {rest : List Placed}
    (hstep : Progress.commaStep ⟨brackets, start, .operator target⟩ position = .ok s')
    (h : Remains scope s' rest) :
    Remains scope ⟨brackets, start, .operator target⟩ (⟨.comma, position⟩ :: rest) := by
  unfold Progress.commaStep at hstep
  split at hstep
  · next hbrackets =>
    obtain rfl : brackets = [] := hbrackets
    cases hstep
    obtain ⟨us, vs, rfl, hvs, hus⟩ := h
    exact ⟨[], ⟨.comma, position⟩ :: (us ++ vs), rfl,
      .inr ⟨position, us ++ vs, rfl, Further.statements hvs hus⟩, .inl .nil⟩
  · cases hstep
  · next outer hbrackets =>
    obtain rfl : brackets = .call :: outer := hbrackets
    cases hstep
    obtain ⟨us, _, rfl, ⟨ws, closing, xs, vs, rfl, hws, _, hxs, hvs⟩, hus⟩ := h
    refine ⟨[], ⟨.comma, position⟩ :: (us ++ (ws ++ ⟨.closing, closing⟩ :: (xs ++ vs))), rfl,
      ⟨⟨.comma, position⟩ :: (us ++ ws), closing, xs, vs, by simp, ?_, by simp, hxs, hvs⟩,
      .inl .nil⟩
    exact .inr ⟨position, us ++ ws, rfl, hws.statements hus⟩

theorem Remains.closingStep {brackets : List Bracket} {start : Nat} {target : Bool} {s' : Progress}
    {position : Nat} {rest : List Placed}
    (hstep : Progress.closingStep ⟨brackets, start, .operator target⟩ position = .ok s')
    (h : Remains scope s' rest) :
    Remains scope ⟨brackets, start, .operator target⟩ (⟨.closing, position⟩ :: rest) := by
  unfold Progress.closingStep at hstep
  split at hstep
  · cases hstep
  · next bracket outer hbrackets =>
    obtain rfl : brackets = bracket :: outer := hbrackets
    cases hstep
    obtain ⟨us, vs, rfl, hvs, hus⟩ := h
    refine ⟨[], ⟨.closing, position⟩ :: (us ++ vs), rfl,
      ⟨[], position, us, vs, rfl, .inl rfl, fun _ ↦ rfl, ?_, hvs⟩, .inl .nil⟩
    exact hus.resolve_right fun ⟨htarget, _⟩ ↦ nomatch htarget

theorem Remains.operatorStep {brackets : List Bracket} {start : Nat} {target : Bool}
    {s' : Progress} {token : Token} {position : Nat} {rest : List Placed}
    (hstep : Progress.operatorStep ⟨brackets, start, .operator target⟩ target token position =
      .ok s')
    (h : Remains scope s' rest) :
    Remains scope ⟨brackets, start, .operator target⟩ (⟨token, position⟩ :: rest) := by
  unfold Progress.operatorStep at hstep
  split at hstep
  · next op =>
    cases hstep
    obtain ⟨us, vs, rfl, hvs, hus⟩ := h
    have hchain : Derives scope .chain us := hus
    cases hchain with
    | chain hoperand htail => exact ⟨_, vs, rfl, hvs, .inl (.cons hoperand htail)⟩
  · exact .equalsStep hstep h
  · exact .commaStep hstep h
  · exact .closingStep hstep h
  all_goals cases hstep

end Progress

namespace Scope

/-- **What follows a state that the check accepts is what may follow it.** -/
theorem remains_of_problemFrom {scope : Scope} {stop : Nat} {s : Progress} {ts : List Placed}
    (h : scope.problemFrom stop s ts = none) : Progress.Remains scope s ts := by
  fun_induction problemFrom scope stop s ts with
  | case1 s =>
    obtain ⟨brackets, start, expected⟩ := s
    unfold Progress.atEnd at h
    split at h
    · cases h
    · next houtside =>
      split at h
      · cases h
      · next target hexpected =>
        obtain rfl : expected = .operator target := hexpected
        obtain rfl : brackets = [] := by simpa [Progress.outside] using houtside
        exact ⟨[], [], rfl, .inl rfl, .inl .nil⟩
  | case3 s position before text hs f opening closing rest hfind harity ih =>
    obtain ⟨brackets, start, expected⟩ := s
    obtain rfl : expected = .operand before := hs
    exact (ih h).primary (.callNone hfind (Decidable.not_not.1 harity)) (by simp)
  | case4 s position before text hs f opening rest _ hfind ih =>
    obtain ⟨brackets, start, expected⟩ := s
    obtain rfl : expected = .operand before := hs
    exact (ih h).call (.inl (by rw [hfind]; rfl))
  | case7 s position before text hs opening rest _ hhas ih =>
    obtain ⟨brackets, start, expected⟩ := s
    obtain rfl : expected = .operand before := hs
    exact (ih h).call (.inr (Bool.eq_false_iff.2 hhas))
  | case8 s position before text hs rest _ hfind ih =>
    obtain ⟨brackets, start, expected⟩ := s
    obtain rfl : expected = .operand before := hs
    exact (ih h).primary (.name hfind) fun htarget ↦ ⟨htarget, text, position, rfl, hfind⟩
  | case9 s position rest before token hname hs s' hstep ih =>
    obtain ⟨brackets, start, expected⟩ := s
    obtain rfl : expected = .operand before := hs
    exact .operandStep hname hstep (ih h)
  | case11 s position rest target token hs s' hstep ih =>
    obtain ⟨brackets, start, expected⟩ := s
    obtain rfl : expected = .operator target := hs
    exact .operatorStep hstep (ih h)
  | _ => cases h

/-- **A text without a structural problem is in the grammar.** -/
theorem derives_of_problem? {scope : Scope} {text : String} (h : scope.problem? text = none) :
    Derives scope .statements (Placed.scan 0 text.toList) := by
  unfold problem? at h
  split at h
  · cases h
  · split at h
    · obtain ⟨us, vs, hsplit, hvs, hus⟩ := remains_of_problemFrom h
      rw [hsplit]
      exact Progress.Further.statements hvs hus
    · cases h

end Scope

end Reckoner
