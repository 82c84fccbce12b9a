import Reckoner.Expr.Reading

/-!
# The tokens of an expression

The reader takes one token after the other and forgets some of them: closing brackets, the commas
in them, equals signs, and whatever a target had around its name.  `Expr.Spans` says which tokens an
expression was read from, without a gap and in the order of the text.

The tree has less structure than the grammar gives it, with one exception that matters: what a power
is raised from is an operand alone, neither a sign nor an operator nor an assignment
(`Expr.isElement`).  So a sign is never applied to the left side of a power, but to the power.

`Reading.Spans` is the invariant of the reader: all that it holds, from the outside to the inside,
was read from all the tokens before the next one.  There is one lemma for each of its steps, and
`Scope.spans_of_read` is what follows for the texts it reads.  Nothing here asks whether a text has
passed the structural check.
-/

set_option autoImplicit false

namespace Reckoner

variable {scope : Scope}

/-- An expression with the tokens it was read from, and the position of the comma behind it. -/
structure Extent where
  tokens : List Placed
  expr : Expr
  comma : Nat

namespace Extent

/-- The tokens of several expressions, each with its comma. -/
def joined (items : List Extent) : List Placed :=
  items.flatMap fun i ↦ i.tokens ++ [⟨.comma, i.comma⟩]

/-- The statement that ends with the comma. -/
def finished (i : Extent) : Finished := ⟨i.expr, i.comma⟩

theorem joined_concat (items : List Extent) (i : Extent) :
    joined (items ++ [i]) = joined items ++ (i.tokens ++ [⟨.comma, i.comma⟩]) := by
  simp [joined]

end Extent

/-- Whether an expression is an operand alone. -/
def Expr.isElement : Expr → Bool
  | number _ _ | name _ | call _ _ _ | group _ _ => true
  | negate _ _ | binary _ _ _ _ | assign _ _ => false

/-- An expression was read from tokens. -/
inductive Expr.Spans (scope : Scope) : Expr → List Placed → Prop
  | number {numeral : List Char} {position : Nat} :
    Spans scope (.number numeral position) [⟨.number numeral, position⟩]
  | name {r : Reference} (meaning : scope.meaning r.name = .variable r.slot) :
    Spans scope (.name r) [⟨.name r.name, r.position⟩]
  | callNone {f : Function} {text : String} {position opening closing : Nat}
    (meaning : scope.meaning text = .function f) (arity : f.arity = 0) :
    Spans scope (.call f position [])
      [⟨.name text, position⟩, ⟨.opening, opening⟩, ⟨.closing, closing⟩]
  | call {f : Function} {text : String} {position opening closing : Nat} {items : List Extent}
    {ts : List Placed} {e : Expr} (meaning : scope.meaning text = .function f)
    (arity : items.length + 1 = f.arity) (all : ∀ i ∈ items, Spans scope i.expr i.tokens)
    (last : Spans scope e ts) :
    Spans scope (.call f position (items.map Extent.expr ++ [e]))
      (⟨.name text, position⟩ :: ⟨.opening, opening⟩ ::
        (Extent.joined items ++ (ts ++ [⟨.closing, closing⟩])))
  | group {position closing : Nat} {ts : List Placed} {e : Expr} (inner : Spans scope e ts) :
    Spans scope (.group position e) (⟨.opening, position⟩ :: (ts ++ [⟨.closing, closing⟩]))
  | negate {position : Nat} {ts : List Placed} {e : Expr} (operand : Spans scope e ts) :
    Spans scope (.negate position e) (⟨.operator .sub, position⟩ :: ts)
  | binary {op : Operator} {position : Nat} {ls rs : List Placed} {l r : Expr}
    (element : op = .pow → l.isElement = true) (left : Spans scope l ls)
    (right : Spans scope r rs) :
    Spans scope (.binary op position l r) (ls ++ ⟨.operator op, position⟩ :: rs)
  | assign {r : Reference} {equals : Nat} {ts us : List Placed} {e v : Expr}
    (target : e.target? = some r) (span : Spans scope e ts) (value : Spans scope v us) :
    Spans scope (.assign r v) (ts ++ ⟨.equals, equals⟩ :: us)

/-- A sequence was read from tokens. -/
inductive Sequence.Spans (scope : Scope) : Sequence → List Placed → Prop
  | intro {items : List Extent} {ts : List Placed} {e : Expr}
    (all : ∀ i ∈ items, i.expr.Spans scope i.tokens) (last : e.Spans scope ts) :
    Spans scope ⟨items.map Extent.finished, e⟩ (Extent.joined items ++ ts)

/-! ## What waits for an operand -/

namespace Pending

/-- What waits for an operand was read from tokens. -/
inductive Spans (scope : Scope) : Pending → List Placed → Prop
  | assign {r : Reference} (equals : Nat) {ts : List Placed} {e : Expr}
    (target : e.target? = some r) (span : e.Spans scope ts) :
    Spans scope (.assign r) (ts ++ [⟨.equals, equals⟩])
  | binary {op : Operator} (position : Nat) {ls : List Placed} {l : Expr}
    (element : op = .pow → l.isElement = true) (left : l.Spans scope ls) :
    Spans scope (.binary op position l) (ls ++ [⟨.operator op, position⟩])
  | sign (position : Nat) : Spans scope (.sign position) [⟨.operator .sub, position⟩]

/-- All that waits, the innermost first, was read from tokens. -/
inductive SpansAll (scope : Scope) : List Pending → List Placed → Prop
  | nil : SpansAll scope [] []
  | cons {p : Pending} {ps : List Pending} {us ts : List Placed} (rest : SpansAll scope ps us)
    (first : p.Spans scope ts) : SpansAll scope (p :: ps) (us ++ ts)

theorem Spans.complete {p : Pending} {e : Expr} {us ts : List Placed} (hp : p.Spans scope us)
    (he : e.Spans scope ts) : (p.complete e).Spans scope (us ++ ts) := by
  cases hp with
  | assign _ htarget hspan =>
    rw [List.append_assoc]
    exact .assign htarget hspan he
  | binary _ helement hleft =>
    rw [List.append_assoc]
    exact .binary helement hleft he
  | sign => exact .negate he

theorem SpansAll.closeAll {ps : List Pending} {e : Expr} {us ts : List Placed}
    (hps : SpansAll scope ps us) (he : e.Spans scope ts) :
    (Pending.closeAll ps e).Spans scope (us ++ ts) := by
  induction hps generalizing e ts with
  | nil => exact he
  | cons _ hp ih =>
    rw [List.append_assoc]
    exact ih (hp.complete he)

/-- What is completed takes its tokens from the end of those that waited. -/
theorem SpansAll.close {ps : List Pending} {e : Expr} {us ts : List Placed} (least : Nat)
    (hps : SpansAll scope ps us) (he : e.Spans scope ts) :
    ∃ vs ws, us ++ ts = vs ++ ws ∧ SpansAll scope (close least ps e).2 vs ∧
      (close least ps e).1.Spans scope ws := by
  induction hps generalizing e ts with
  | nil => exact ⟨[], ts, rfl, .nil, he⟩
  | @cons p ps us' ts' hrest hp ih =>
    rw [Pending.close]
    split
    · obtain ⟨vs, ws, heq, hvs, hws⟩ := ih (hp.complete he)
      exact ⟨vs, ws, by rw [List.append_assoc, heq], hvs, hws⟩
    · exact ⟨us' ++ ts', ts, rfl, .cons hrest hp, he⟩

theorem strength_lt (p : Pending) : p.strength < 5 := by
  cases p with
  | assign | sign => simp [strength]
  | binary op => cases op <;> simp [strength, Operator.strength]

/-- A power completes nothing. -/
theorem close_pow (ps : List Pending) (e : Expr) :
    close Operator.pow.closes ps e = (e, ps) := by
  cases ps with
  | nil => rfl
  | cons p ps => exact if_neg (Nat.not_le_of_lt p.strength_lt)

end Pending

/-! ## Open brackets -/

/-- An opening bracket was read from tokens, behind the name of its function if it has one. -/
inductive Opener.Spans (scope : Scope) : Opener → List Placed → Prop
  | group {position : Nat} : Spans scope (.group position) [⟨.opening, position⟩]
  | call {f : Function} {text : String} {position opening : Nat}
    (meaning : scope.meaning text = .function f) :
    Spans scope (.call f position) [⟨.name text, position⟩, ⟨.opening, opening⟩]

namespace Enclosure

/-- An open bracket and all that it holds were read from tokens. -/
inductive Spans (scope : Scope) : Enclosure → List Placed → Prop
  | intro {opener : Opener} {items : List Extent} {pending : List Pending} {ps os : List Placed}
    (waits : Pending.SpansAll scope pending ps) (opens : opener.Spans scope os)
    (all : ∀ i ∈ items, i.expr.Spans scope i.tokens) :
    Spans scope ⟨opener, items.map Extent.expr, pending⟩ (ps ++ (os ++ Extent.joined items))

/-- All open brackets, the innermost first, were read from tokens. -/
inductive SpansAll (scope : Scope) : List Enclosure → List Placed → Prop
  | nil : SpansAll scope [] []
  | cons {c : Enclosure} {cs : List Enclosure} {us ts : List Placed}
    (rest : SpansAll scope cs us) (first : c.Spans scope ts) : SpansAll scope (c :: cs) (us ++ ts)

end Enclosure

/-! ## The invariant of the reader -/

/-- The operand that was read last, if any, was read from tokens. -/
inductive Awaited.Spans (scope : Scope) : Awaited → List Placed → Prop
  | operand (signed : Bool) : Spans scope (.operand signed) []
  | operator {e : Expr} {ts : List Placed} (element : e.isElement = true)
    (span : e.Spans scope ts) : Spans scope (.operator e) ts

namespace Reading

/-- All that the reader holds was read from tokens. -/
inductive Spans (scope : Scope) : Reading → List Placed → Prop
  | intro {items : List Extent} {enclosures : List Enclosure} {pending : List Pending}
    {awaited : Awaited} {cs ps ts : List Placed}
    (all : ∀ i ∈ items, i.expr.Spans scope i.tokens)
    (opens : Enclosure.SpansAll scope enclosures cs)
    (waits : Pending.SpansAll scope pending ps) (last : awaited.Spans scope ts) :
    Spans scope ⟨items.map Extent.finished, enclosures, pending, awaited⟩
      (Extent.joined items ++ (cs ++ (ps ++ ts)))

variable {s s' : Reading} {done : List Placed}

theorem spans_initial : initial.Spans scope [] := by
  have hnone : ∀ i ∈ ([] : List Extent), i.expr.Spans scope i.tokens := by simp
  exact .intro hnone .nil .nil (.operand false)

theorem Spans.afterOperand (hs : s.Spans scope done) {signed : Bool}
    (hawaited : s.awaited = .operand signed) {e : Expr} (helement : e.isElement = true)
    {ts : List Placed} (he : e.Spans scope ts) :
    (s.afterOperand e).Spans scope (done ++ ts) := by
  obtain ⟨hall, hopens, hwaits, hlast⟩ := hs
  cases hawaited
  cases hlast
  have hnext := Spans.intro hall hopens hwaits (.operator helement he)
  simpa [Reading.afterOperand] using hnext

theorem Spans.afterSign (hs : s.Spans scope done) {signed : Bool}
    (hawaited : s.awaited = .operand signed) (position : Nat) :
    (s.afterSign position).Spans scope (done ++ [⟨.operator .sub, position⟩]) := by
  obtain ⟨hall, hopens, hwaits, hlast⟩ := hs
  cases hawaited
  cases hlast
  have hnext := Spans.intro hall hopens (.cons hwaits (.sign position))
    (.operand true)
  simpa [Reading.afterSign] using hnext

theorem Spans.enclose (hs : s.Spans scope done) {signed : Bool}
    (hawaited : s.awaited = .operand signed) {opener : Opener} {os : List Placed}
    (ho : opener.Spans scope os) : (s.enclose opener).Spans scope (done ++ os) := by
  obtain ⟨hall, hopens, hwaits, hlast⟩ := hs
  cases hawaited
  cases hlast
  have hnone : ∀ i ∈ ([] : List Extent), i.expr.Spans scope i.tokens := by simp
  have hnext := Spans.intro hall (.cons hopens (.intro hwaits ho hnone)) .nil
    (.operand false)
  simpa [Reading.enclose, Extent.joined] using hnext

theorem Spans.operatorStep {e : Expr} (hs : s.Spans scope done)
    (hawaited : s.awaited = .operator e) (op : Operator) (position : Nat) :
    (s.operatorStep e op position).Spans scope (done ++ [⟨.operator op, position⟩]) := by
  obtain @⟨_, _, pending, _, _, _, _, hall, hopens, hwaits, hlast⟩ := hs
  cases hawaited
  obtain _ | ⟨helement, he⟩ := hlast
  obtain ⟨vs, ws, heq, hvs, hws⟩ := hwaits.close op.closes he
  have hleft : op = .pow → (Pending.close op.closes pending e).1.isElement = true := by
    rintro rfl
    rwa [Pending.close_pow]
  have hnext := Spans.intro hall hopens (.cons hvs (.binary position hleft hws))
    (.operand false)
  simpa [Reading.operatorStep, Reading.waitFor, heq] using hnext

theorem Spans.equalsStep {e : Expr} (hs : s.Spans scope done)
    (hawaited : s.awaited = .operator e) (position : Nat) (h : s.equalsStep e = .ok s') :
    s'.Spans scope (done ++ [⟨.equals, position⟩]) := by
  obtain ⟨hall, hopens, hwaits, hlast⟩ := hs
  cases hawaited
  obtain _ | ⟨helement, he⟩ := hlast
  obtain ⟨vs, ws, heq, hvs, hws⟩ := hwaits.close 1 he
  simp only [Reading.equalsStep] at h
  split at h
  · next r hr =>
    cases h
    have hnext := Spans.intro hall hopens (.cons hvs (.assign position hr hws))
      (.operand false)
    simpa [Reading.waitFor, heq] using hnext
  · cases h

theorem Spans.commaStep {e : Expr} (hs : s.Spans scope done)
    (hawaited : s.awaited = .operator e) (position : Nat) :
    (s.commaStep e position).Spans scope (done ++ [⟨.comma, position⟩]) := by
  obtain @⟨items, enclosures, pending, _, cs, ps, ts, hall, hopens, hwaits, hlast⟩ := hs
  cases hawaited
  obtain _ | ⟨helement, he⟩ := hlast
  have hitem := hwaits.closeAll he
  have hadd : ∀ items : List Extent, (∀ i ∈ items, i.expr.Spans scope i.tokens) →
      ∀ i ∈ items ++ [⟨ps ++ ts, Pending.closeAll pending e, position⟩],
        i.expr.Spans scope i.tokens := fun items hall ↦
    List.forall_mem_append.2 ⟨hall, List.forall_mem_singleton.2 hitem⟩
  cases hopens with
  | nil =>
    have hnext := Spans.intro (hadd items hall) .nil .nil (.operand false)
    simpa [Reading.commaStep, Extent.joined_concat, Extent.finished] using hnext
  | cons hrest hfirst =>
    obtain ⟨hpending, ho, hitems⟩ := hfirst
    have hnext := Spans.intro hall (.cons hrest (.intro hpending ho (hadd _ hitems))) .nil
      (.operand false)
    simpa [Reading.commaStep, Extent.joined_concat] using hnext

theorem spans_closeBracket {opener : Opener} {items : List Extent} {os ts : List Placed}
    {e e' : Expr} (ho : opener.Spans scope os) (hall : ∀ i ∈ items, i.expr.Spans scope i.tokens)
    (he : e.Spans scope ts) (closing : Nat)
    (h : closeBracket opener (items.map Extent.expr ++ [e]) = .ok e') :
    e'.isElement = true ∧
      e'.Spans scope (os ++ (Extent.joined items ++ (ts ++ [⟨.closing, closing⟩]))) := by
  cases ho with
  | group =>
    cases items with
    | nil =>
      cases h
      exact ⟨rfl, .group he⟩
    | cons i items =>
      have hne : items.map Extent.expr ++ [e] ≠ [] := by simp
      obtain ⟨_, _, heq⟩ := List.exists_cons_of_ne_nil hne
      rw [List.map_cons, List.cons_append, heq] at h
      cases h
  | call hmeaning =>
    rw [closeBracket] at h
    split at h
    · next harity =>
      cases h
      exact ⟨rfl, .call hmeaning (by simpa using harity) hall he⟩
    · cases h

theorem Spans.closingStep {e : Expr} (hs : s.Spans scope done)
    (hawaited : s.awaited = .operator e) (position : Nat)
    (h : s.closingStep e position = .ok s') :
    s'.Spans scope (done ++ [⟨.closing, position⟩]) := by
  obtain ⟨hall, hopens, hwaits, hlast⟩ := hs
  cases hawaited
  obtain _ | ⟨helement, he⟩ := hlast
  have hitem := hwaits.closeAll he
  cases hopens with
  | nil => cases h
  | cons hrest hfirst =>
    obtain @⟨opener, items, _, _, os, hpending, ho, hitems⟩ := hfirst
    simp only [Reading.closingStep] at h
    cases hclosed : closeBracket opener (items.map Extent.expr ++ [Pending.closeAll _ e]) with
    | error error =>
      rw [hclosed] at h
      cases h
    | ok operand =>
      rw [hclosed] at h
      cases h
      obtain ⟨helement, hoperand⟩ := spans_closeBracket ho hitems hitem position hclosed
      have hnext := Spans.intro hall hrest hpending (.operator helement hoperand)
      simpa using hnext

theorem Spans.operandTokenStep (hs : s.Spans scope done) {signed : Bool}
    (hawaited : s.awaited = .operand signed) {token : Token} {position : Nat}
    (h : s.operandTokenStep signed token position = .ok s') :
    s'.Spans scope (done ++ [⟨token, position⟩]) := by
  unfold Reading.operandTokenStep at h
  split at h
  · cases h
    exact hs.afterOperand hawaited rfl .number
  · cases h
    exact hs.enclose hawaited .group
  · split at h
    · cases h
    · cases h
      exact hs.afterSign hawaited position
  · cases h

theorem Spans.operatorTokenStep {e : Expr} (hs : s.Spans scope done)
    (hawaited : s.awaited = .operator e) {token : Token} {position : Nat}
    (h : s.operatorTokenStep e token position = .ok s') :
    s'.Spans scope (done ++ [⟨token, position⟩]) := by
  unfold Reading.operatorTokenStep at h
  split at h
  · cases h
    exact hs.operatorStep hawaited _ position
  · exact hs.equalsStep hawaited position h
  · cases h
    exact hs.commaStep hawaited position
  · exact hs.closingStep hawaited position h
  · cases h

theorem Spans.finish {e : Expr} (hs : s.Spans scope done) (hawaited : s.awaited = .operator e)
    {stop : Nat} {sequence : Sequence} (h : s.finish e stop = .ok sequence) :
    sequence.Spans scope done := by
  obtain ⟨hall, hopens, hwaits, hlast⟩ := hs
  cases hawaited
  obtain _ | ⟨helement, he⟩ := hlast
  cases hopens with
  | nil =>
    cases h
    exact .intro hall (hwaits.closeAll he)
  | cons => cases h

end Reading

namespace Scope

/-- The reader adds the tokens that it reads to those before them. -/
theorem spans_readFrom {stop : Nat} {s : Reading} {done rest : List Placed} {sequence : Sequence}
    (hs : s.Spans scope done) (h : scope.readFrom stop s rest = .ok sequence) :
    sequence.Spans scope (done ++ rest) := by
  fun_induction readFrom scope stop s rest generalizing done with
  | case3 s e hs' =>
    rw [List.append_nil]
    exact hs.finish hs' h
  | case5 s position signed hs' text _ f _ _ rest hmeaning operand hclosed ih =>
    rw [Reading.closeBracket] at hclosed
    split at hclosed
    · next harity =>
      cases hclosed
      simpa using ih (hs.afterOperand hs' rfl (.callNone hmeaning (by simpa using harity.symm))) h
    · cases hclosed
  | case7 s position signed hs' text _ f _ rest _ hmeaning ih =>
    simpa using ih (hs.enclose hs' (.call hmeaning)) h
  | case9 s position signed hs' text _ slot rest hmeaning ih =>
    rw [List.append_cons]
    exact ih (hs.afterOperand hs' rfl (.name hmeaning)) h
  | case11 s position rest signed hs' token _ _ s' hstep ih =>
    rw [List.append_cons]
    exact ih (hs.operandTokenStep hs' hstep) h
  | case13 s token position rest e hs' s' hstep ih =>
    rw [List.append_cons]
    exact ih (hs.operatorTokenStep hs' hstep) h
  | _ => cases h

/-- **What is read from a text is read from all its tokens.** -/
theorem spans_of_read {text : String} {sequence : Sequence}
    (h : scope.read text = .ok sequence) :
    sequence.Spans scope (Placed.scan 0 text.toList) :=
  spans_readFrom Reading.spans_initial h

end Scope

end Reckoner
