import Reckoner.Expr.Reading
import Reckoner.Proofs.Grammar.Term

/-!
# Looking names up

`Scope.resolve` makes an expression of a parse tree: it looks up each name, counts the arguments of
each call, and asks at each operand whether it nests too deeply.  It goes through the tree from left
to right, so that of several mistakes the first one counts.  `Scope.resolveScript` does this for the
statements of a text.

`Scope.Resolves` is what a lookup that succeeds has found, without its order: inductions over terms
and their expressions go by it (`resolves_of_resolve`).
-/

set_option autoImplicit false

namespace Reckoner

@[simp] theorem ok_bind {ε α β : Type} (a : α) (f : α → Except ε β) :
    (Except.ok a : Except ε α) >>= f = f a := rfl

@[simp] theorem error_bind {ε α β : Type} (e : ε) (f : α → Except ε β) :
    (Except.error e : Except ε α) >>= f = .error e := rfl

/-- A chain of steps succeeds if each of them does. -/
theorem bind_eq_ok {ε α β : Type} {x : Except ε α} {f : α → Except ε β} {b : β} :
    x >>= f = .ok b ↔ ∃ a, x = .ok a ∧ f a = .ok b := by
  cases x with
  | ok a => exact ⟨fun h ↦ ⟨a, rfl, h⟩, fun ⟨_, ha, h⟩ ↦ Except.ok.inj ha ▸ h⟩
  | error e => exact ⟨(fun h ↦ nomatch h), fun ⟨_, ha, _⟩ ↦ nomatch ha⟩

/-- A chain of steps fails if one of them does. -/
theorem bind_eq_error {ε α β : Type} {x : Except ε α} {f : α → Except ε β} {e : ε} :
    x >>= f = .error e ↔ x = .error e ∨ ∃ a, x = .ok a ∧ f a = .error e := by
  cases x with
  | ok a => exact ⟨fun h ↦ .inr ⟨a, rfl, h⟩, fun h ↦ by simpa using h⟩
  | error e' =>
    refine ⟨fun h ↦ .inl ?_, fun h ↦ by simpa using h⟩
    cases h
    rfl

namespace Scope

variable (scope : Scope)

/-- Whether an operand may stand at a depth. -/
def checkDepth (depth position : Nat) : Except CompileError Unit :=
  if scope.limit < depth then .error ⟨.tooDeep scope.limit, position⟩ else .ok ()

/-- Looks up a name that stands alone. -/
def refer (text : String) (position : Nat) : Except CompileError Reference :=
  match scope.meaning text with
  | .variable slot => .ok ⟨text, slot, position⟩
  | .function f => .error ⟨.noBracket f.name, position + text.length⟩
  | .unknown => .error ⟨.unknownName text (scope.similar text), position⟩

/-- Looks up a name that is called. -/
def callee (text : String) (position : Nat) : Except CompileError Function :=
  match scope.meaning text with
  | .function f => .ok f
  | .variable _ | .unknown => .error ⟨.unknownName text (scope.similar text), position⟩

mutual

/-- The expression of a term whose operands are at a depth. -/
def resolve (depth : Nat) : Term → Except CompileError Expr
  | .number numeral position => do
    scope.checkDepth depth position
    return .number numeral position
  | .name text position => do
    scope.checkDepth depth position
    return .name (← scope.refer text position)
  | .call text position arguments => do
    scope.checkDepth depth position
    let f ← scope.callee text position
    Reading.closeBracket (.call f position) (← resolveAll (depth + 1) arguments)
  | .group position inner => do
    scope.checkDepth depth position
    return .group position (← resolve (depth + 1) inner)
  | .negate position operand => do
    scope.checkDepth depth position
    return .negate position (← resolve depth operand)
  | .binary op position left right => do
    let l ← resolve depth left
    let r ← resolve (if op = .pow then depth + 1 else depth) right
    return .binary op position l r
  | .assign target position value => do
    scope.checkDepth depth position
    let r ← scope.refer target position
    return .assign r (← resolve depth value)

/-- The expressions of several terms. -/
def resolveAll (depth : Nat) : List Term → Except CompileError (List Expr)
  | [] => .ok []
  | t :: ts => do
    let e ← resolve depth t
    return e :: (← resolveAll depth ts)

end

/-- The expressions of statements with commas behind them. -/
def resolveFinished : List (Term × Nat) → Except CompileError (List Finished)
  | [] => .ok []
  | (t, comma) :: ts => do
    let e ← scope.resolve 1 t
    return ⟨e, comma⟩ :: (← resolveFinished ts)

/-- The expressions of a text. -/
def resolveScript (script : Script) : Except CompileError Sequence := do
  let finished ← scope.resolveFinished script.finished
  return ⟨finished, ← scope.resolve 1 script.last⟩

/-! ## What a lookup finds -/

/-- An expression is what the names of a term stand for at a depth. -/
inductive Resolves : Nat → Term → Expr → Prop
  | number {depth : Nat} {numeral : List Char} {position : Nat}
    (shallow : (depth : Int) ≤ scope.limit) :
    Resolves depth (.number numeral position) (.number numeral position)
  | name {depth : Nat} {text : String} {position : Nat} {v : Variable}
    (shallow : (depth : Int) ≤ scope.limit) (defined : scope.variables.find? text = some v) :
    Resolves depth (.name text position) (.name ⟨text, v.slot, position⟩)
  | call {depth : Nat} {text : String} {position : Nat} {f : Function} {ts : List Term}
    {es : List Expr} {arguments : List (Term × Expr)} (shallow : (depth : Int) ≤ scope.limit)
    (function : scope.functions.find? text = some f) (terms : ts = arguments.map Prod.fst)
    (exprs : es = arguments.map Prod.snd) (all : ∀ a ∈ arguments, Resolves (depth + 1) a.1 a.2)
    (arity : arguments.length = f.arity) :
    Resolves depth (.call text position ts) (.call f position es)
  | group {depth position : Nat} {t : Term} {e : Expr} (inner : Resolves (depth + 1) t e) :
    Resolves depth (.group position t) (.group position e)
  | negate {depth position : Nat} {t : Term} {e : Expr} (operand : Resolves depth t e) :
    Resolves depth (.negate position t) (.negate position e)
  | binary {depth : Nat} {op : Operator} {position : Nat} {l r : Term} {left right : Expr}
    (first : Resolves depth l left)
    (second : Resolves (if op = .pow then depth + 1 else depth) r right) :
    Resolves depth (.binary op position l r) (.binary op position left right)
  | assign {depth : Nat} {target : String} {position : Nat} {v : Variable} {t : Term} {e : Expr}
    (defined : scope.variables.find? target = some v) (value : Resolves depth t e) :
    Resolves depth (.assign target position t) (.assign ⟨target, v.slot, position⟩ e)

variable {scope}

theorem checkDepth_ok {depth position : Nat} {u : Unit}
    (h : scope.checkDepth depth position = .ok u) : (depth : Int) ≤ scope.limit := by
  rw [checkDepth] at h
  split at h
  · cases h
  · next hle => exact Int.not_lt.1 hle

/-- A name that is found alone is that of a variable. -/
theorem refer_ok {text : String} {position : Nat} {r : Reference}
    (h : scope.refer text position = .ok r) :
    ∃ v, scope.variables.find? text = some v ∧ r = ⟨text, v.slot, position⟩ := by
  rw [refer] at h
  cases hmeaning : scope.meaning text with
  | «variable» slot =>
    obtain ⟨-, v, hfind, rfl⟩ := find?_of_meaning_variable hmeaning
    rw [hmeaning] at h
    cases h
    exact ⟨v, hfind, rfl⟩
  | function | unknown =>
    rw [hmeaning] at h
    cases h

/-- A name that is found before arguments is that of a function. -/
theorem callee_ok {text : String} {position : Nat} {f : Function}
    (h : scope.callee text position = .ok f) : scope.functions.find? text = some f := by
  rw [callee] at h
  cases hmeaning : scope.meaning text with
  | function g =>
    rw [hmeaning] at h
    cases h
    exact find?_of_meaning_function hmeaning
  | «variable» | unknown =>
    rw [hmeaning] at h
    cases h

/-- The brackets of a call close if there are as many arguments as the function takes. -/
theorem closeBracket_call_ok {f : Function} {position : Nat} {es : List Expr} {e : Expr}
    (h : Reading.closeBracket (.call f position) es = .ok e) :
    es.length = f.arity ∧ e = .call f position es := by
  rw [Reading.closeBracket] at h
  split at h
  · next harity =>
    cases h
    exact ⟨harity, rfl⟩
  · cases h

/-- Terms that are looked up have an expression each. -/
theorem exists_of_resolveAll {depth : Nat} {ts : List Term} {es : List Expr}
    (ih : ∀ t ∈ ts, ∀ {e : Expr}, scope.resolve depth t = .ok e → scope.Resolves depth t e)
    (h : scope.resolveAll depth ts = .ok es) :
    ∃ pairs : List (Term × Expr), ts = pairs.map Prod.fst ∧ es = pairs.map Prod.snd ∧
      ∀ q ∈ pairs, scope.Resolves depth q.1 q.2 := by
  induction ts generalizing es with
  | nil =>
    cases h
    exact ⟨[], rfl, rfl, by simp⟩
  | cons t ts ihts =>
    obtain ⟨iht, ih⟩ := List.forall_mem_cons.1 ih
    obtain ⟨e, he, h⟩ := bind_eq_ok.1 h
    obtain ⟨es', hes', h⟩ := bind_eq_ok.1 h
    cases h
    obtain ⟨pairs, rfl, rfl, hpairs⟩ := ihts ih hes'
    exact ⟨(t, e) :: pairs, rfl, rfl, List.forall_mem_cons.2 ⟨iht he, hpairs⟩⟩

/-- **What a lookup that succeeds has found.** -/
theorem resolves_of_resolve (t : Term) :
    ∀ {depth : Nat} {e : Expr}, scope.resolve depth t = .ok e → scope.Resolves depth t e := by
  induction t with
  | number numeral position =>
    intro depth e h
    rw [resolve] at h
    obtain ⟨_, hcheck, h⟩ := bind_eq_ok.1 h
    cases h
    exact .number (checkDepth_ok hcheck)
  | name text position =>
    intro depth e h
    rw [resolve] at h
    obtain ⟨_, hcheck, h⟩ := bind_eq_ok.1 h
    obtain ⟨r, hrefer, h⟩ := bind_eq_ok.1 h
    obtain ⟨v, hv, rfl⟩ := refer_ok hrefer
    cases h
    exact .name (checkDepth_ok hcheck) hv
  | call text position arguments ih =>
    intro depth e h
    rw [resolve] at h
    obtain ⟨_, hcheck, h⟩ := bind_eq_ok.1 h
    obtain ⟨f, hcallee, h⟩ := bind_eq_ok.1 h
    obtain ⟨es, hes, h⟩ := bind_eq_ok.1 h
    obtain ⟨harity, rfl⟩ := closeBracket_call_ok h
    obtain ⟨pairs, hterms, hexprs, hpairs⟩ := exists_of_resolveAll (fun t ht ↦ ih t ht) hes
    rw [hexprs, List.length_map] at harity
    exact .call (checkDepth_ok hcheck) (callee_ok hcallee) hterms hexprs hpairs harity
  | group position inner ih =>
    intro depth e h
    rw [resolve] at h
    obtain ⟨_, _, h⟩ := bind_eq_ok.1 h
    obtain ⟨e', hinner, h⟩ := bind_eq_ok.1 h
    cases h
    exact .group (ih hinner)
  | negate position operand ih =>
    intro depth e h
    rw [resolve] at h
    obtain ⟨_, _, h⟩ := bind_eq_ok.1 h
    obtain ⟨e', hoperand, h⟩ := bind_eq_ok.1 h
    cases h
    exact .negate (ih hoperand)
  | binary op position left right ihl ihr =>
    intro depth e h
    rw [resolve] at h
    obtain ⟨l, hl, h⟩ := bind_eq_ok.1 h
    obtain ⟨r, hr, h⟩ := bind_eq_ok.1 h
    cases h
    exact .binary (ihl hl) (ihr hr)
  | assign target position value ih =>
    intro depth e h
    rw [resolve] at h
    obtain ⟨_, _, h⟩ := bind_eq_ok.1 h
    obtain ⟨r, hrefer, h⟩ := bind_eq_ok.1 h
    obtain ⟨e', hvalue, h⟩ := bind_eq_ok.1 h
    obtain ⟨v, hv, rfl⟩ := refer_ok hrefer
    cases h
    exact .assign hv (ih hvalue)

theorem resolveAll_length {depth : Nat} {ts : List Term} {es : List Expr}
    (h : scope.resolveAll depth ts = .ok es) : es.length = ts.length := by
  obtain ⟨pairs, rfl, rfl, _⟩ := exists_of_resolveAll (fun t _ ↦ resolves_of_resolve t) h
  rw [List.length_map, List.length_map]

/-- A statement with its expression and the position of the comma behind it. -/
structure Row where
  term : Term
  expr : Expr
  comma : Nat

/-- What looking up a text has found. -/
structure ResolvesScript (scope : Scope) (rows : List Row) (script : Script)
    (sequence : Sequence) : Prop where
  terms : script.finished = rows.map fun r ↦ (r.term, r.comma)
  exprs : sequence.finished = rows.map fun r ↦ ⟨r.expr, r.comma⟩
  finished : ∀ r ∈ rows, scope.Resolves 1 r.term r.expr
  last : scope.Resolves 1 script.last sequence.last

theorem exists_of_resolveFinished {ts : List (Term × Nat)} {finished : List Finished}
    (h : scope.resolveFinished ts = .ok finished) :
    ∃ rows : List Row, ts = rows.map (fun r ↦ (r.term, r.comma)) ∧
      finished = rows.map (fun r ↦ ⟨r.expr, r.comma⟩) ∧
      ∀ r ∈ rows, scope.Resolves 1 r.term r.expr := by
  induction ts generalizing finished with
  | nil =>
    cases h
    exact ⟨[], rfl, rfl, by simp⟩
  | cons t ts ih =>
    obtain ⟨e, he, h⟩ := bind_eq_ok.1 h
    obtain ⟨finished', hfinished', h⟩ := bind_eq_ok.1 h
    cases h
    obtain ⟨rows, rfl, rfl, hrows⟩ := ih hfinished'
    exact ⟨⟨t.1, e, t.2⟩ :: rows, rfl, rfl,
      List.forall_mem_cons.2 ⟨resolves_of_resolve t.1 he, hrows⟩⟩

/-- **What looking up a text that succeeds has found.** -/
theorem resolvesScript_of_resolveScript {script : Script} {sequence : Sequence}
    (h : scope.resolveScript script = .ok sequence) :
    ∃ rows, scope.ResolvesScript rows script sequence := by
  obtain ⟨finished, hfinished, h⟩ := bind_eq_ok.1 h
  obtain ⟨e, he, h⟩ := bind_eq_ok.1 h
  cases h
  obtain ⟨rows, hterms, rfl, hrows⟩ := exists_of_resolveFinished hfinished
  exact ⟨rows, hterms, rfl, hrows, resolves_of_resolve script.last he⟩

/-- The statements of a text that was looked up. -/
theorem ResolvesScript.exists_of_mem {rows : List Row} {script : Script} {sequence : Sequence}
    (h : scope.ResolvesScript rows script sequence) :
    ∀ t ∈ script.statements, ∃ e, scope.Resolves 1 t e := by
  intro t ht
  rw [Script.statements, h.terms, List.map_map] at ht
  rcases List.mem_append.1 ht with ht | ht
  · obtain ⟨r, hr, rfl⟩ := List.mem_map.1 ht
    exact ⟨r.expr, h.finished r hr⟩
  · obtain rfl := List.mem_singleton.1 ht
    exact ⟨_, h.last⟩

end Scope

/-! ## The tree of an expression -/

namespace Expr

mutual

/-- The tree that an expression was made from. -/
def term : Expr → Term
  | number numeral position => .number numeral position
  | name reference => .name reference.name reference.position
  | call function position arguments => .call function.name position (termOfAll arguments)
  | group position inner => .group position inner.term
  | negate position operand => .negate position operand.term
  | binary op position left right => .binary op position left.term right.term
  | assign target value => .assign target.name target.position value.term

/-- The trees that several expressions were made from. -/
def termOfAll : List Expr → List Term
  | [] => []
  | e :: es => e.term :: termOfAll es

end

theorem termOfAll_eq (es : List Expr) : termOfAll es = es.map term := by
  induction es with
  | nil => rfl
  | cons e es ih => rw [termOfAll, ih, List.map_cons]

end Expr

/-- The tree that a sequence was made from. -/
def Sequence.script (s : Sequence) : Script :=
  ⟨s.finished.map fun f ↦ (f.statement.term, f.comma), s.last.term⟩

namespace Scope

variable {scope : Scope}

/-- A lookup loses nothing of the tree. -/
theorem Resolves.term_eq {depth : Nat} {t : Term} {e : Expr} (h : scope.Resolves depth t e) :
    e.term = t := by
  induction h with
  | number | name => rfl
  | @call _ text _ f _ _ arguments _ function terms exprs _ _ ih =>
    have hname : f.name = text := by simpa using List.find?_some function
    have hall : Expr.termOfAll (arguments.map Prod.snd) = arguments.map Prod.fst := by
      rw [Expr.termOfAll_eq, List.map_map]
      exact List.map_congr_left ih
    rw [terms, exprs, Expr.term, hname, hall]
  | group _ ih | negate _ ih | assign _ _ ih => rw [Expr.term, ih]
  | binary _ _ ihl ihr => rw [Expr.term, ihl, ihr]

/-- A lookup loses nothing of a text. -/
theorem ResolvesScript.script_eq {rows : List Row} {script : Script} {sequence : Sequence}
    (h : scope.ResolvesScript rows script sequence) : sequence.script = script := by
  have hrows : rows.map (fun r ↦ (r.expr.term, r.comma)) =
      rows.map fun r ↦ (r.term, r.comma) :=
    List.map_congr_left fun r hr ↦ by rw [(h.finished r hr).term_eq]
  rw [Sequence.script, h.exprs, List.map_map, h.last.term_eq]
  show Script.mk (rows.map fun r ↦ (r.expr.term, r.comma)) script.last = script
  rw [hrows, ← h.terms]

end Scope

end Reckoner
