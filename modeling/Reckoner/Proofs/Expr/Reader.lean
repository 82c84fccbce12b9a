import Reckoner.Proofs.Expr.Resolution
import Reckoner.Proofs.Expr.Span
import Reckoner.Proofs.Grammar.Names
import Mathlib.Order.Nat

/-!
# The reader follows the grammar

The reader keeps what waits for an operand on a stack and builds no tree before an operator, a comma
or a bracket tells it to.  Behind the tokens of a term it therefore holds the term taken apart along
its right edge: `Expr.tip` is the operand that was read last, and `Expr.edge` is what waits for it.

`Parses.readsAs` says that reading the tokens of a term comes to looking its names up and going on
behind it, whatever was read before and whatever follows.  This needs two things of the state: what
waits in front of the term must not be closed by the operators of the term, and behind a sign there
must be no other sign (`Reading.Admits`).  `Scope.read_eq` is the result for a text.
-/

set_option autoImplicit false

namespace Reckoner

/-! ## The right edge of an expression -/

namespace Expr

/-- The operand at the right edge. -/
def tip : Expr → Expr
  | negate _ operand => operand.tip
  | binary _ _ _ right => right.tip
  | assign _ value => value.tip
  | e => e

/-- What waits for the operand at the right edge, the innermost first. -/
def edge : Expr → List Pending
  | negate position operand => operand.edge ++ [.sign position]
  | binary op position left right => right.edge ++ [.binary op position left]
  | assign target value => value.edge ++ [.assign target]
  | _ => []

end Expr

namespace Pending

theorem closeAll_append (ps qs : List Pending) (e : Expr) :
    closeAll (ps ++ qs) e = closeAll qs (closeAll ps e) :=
  List.foldl_append

/-- An expression is put together again along its right edge. -/
theorem closeAll_edge : ∀ e : Expr, closeAll e.edge e.tip = e
  | .negate position operand => by
    rw [Expr.edge, Expr.tip, closeAll_append, closeAll_edge operand]
    rfl
  | .binary op position left right => by
    rw [Expr.edge, Expr.tip, closeAll_append, closeAll_edge right]
    rfl
  | .assign target value => by
    rw [Expr.edge, Expr.tip, closeAll_append, closeAll_edge value]
    rfl
  | .number _ _ | .name _ | .call _ _ _ | .group _ _ => rfl

/-- What binds tightly enough is completed, up to the first thing that does not. -/
theorem close_append {least : Nat} {ps qs : List Pending} (e : Expr)
    (hps : ∀ p ∈ ps, least ≤ p.strength) (hqs : ∀ q ∈ qs.head?, q.strength < least) :
    close least (ps ++ qs) e = (closeAll ps e, qs) := by
  induction ps generalizing e with
  | nil =>
    cases qs with
    | nil => rfl
    | cons q qs =>
      have hq : q.strength < least := hqs q (by simp)
      rw [List.nil_append, close, if_neg (Nat.not_le_of_lt hq)]
      rfl
  | cons p ps ih =>
    obtain ⟨hp, hps⟩ := List.forall_mem_cons.1 hps
    rw [List.cons_append, close, if_pos hp, ih _ hps]
    rfl

theorem depth_cons (p : Pending) (ps : List Pending) :
    depth (p :: ps) = depth ps + if p.deepens then 1 else 0 := by
  rw [depth, List.countP_cons, depth]

/-- Behind an opening bracket operands nest one deeper. -/
theorem depth_enclose {depth : Nat} {pending : List Pending} {enclosures : List Enclosure}
    (h : depth = 1 + Pending.depth pending + Enclosure.depth enclosures) (opener : Opener)
    (items : List Expr) :
    depth + 1 =
      1 + Pending.depth [] + Enclosure.depth (⟨opener, items, pending⟩ :: enclosures) := by
  show depth + 1 = 1 + 0 + (1 + Pending.depth pending + Enclosure.depth enclosures)
  omega

end Pending

/-! ## Levels and strengths -/

namespace Level

/-- The operators of a level close what binds at least as tightly. -/
def bound : Level → Nat
  | statement | sum => 1
  | product => 2
  | signed | power | element => 5

/-- How tightly everything along the right edge of a term binds. -/
def least : Level → Nat
  | statement => 0
  | sum => 1
  | product => 2
  | signed | power => 3
  | element => 5

end Level

theorem Operator.strength_of_level {op : Operator} {level : Level} (h : op.level = level) :
    level.least ≤ op.strength := by
  subst h
  cases op <;> decide

/-- An operator closes what the terms of its level would close. -/
theorem Operator.closes_of_level {op : Operator} {level : Level} (h : op.level = level) :
    op.closes = level.bound := by
  subst h
  cases op <;> decide

/-! ## Single steps -/

namespace Reading

/-- What must be so where a term of a level begins. -/
structure Admits (limit : Int) (level : Level) (pending : List Pending) (depth : Nat)
    (signed : Bool) : Prop where
  /-- What waits in front of the term is not closed by its operators. -/
  loose : ∀ p ∈ pending.head?, p.strength < level.bound
  /-- Behind a sign there is no other sign, and the depth is known to be right. -/
  signed : signed = true → (level = .power ∨ level = .element) ∧ (depth : Int) ≤ limit

theorem Admits.mono {limit : Int} {level level' : Level} {pending : List Pending} {depth : Nat}
    {signed : Bool} (h : Admits limit level pending depth signed)
    (hbound : level.bound ≤ level'.bound) (hlevel : level = .power → level' = .element)
    (hlevel' : level = .element → level' = .element) :
    Admits limit level' pending depth signed := by
  refine ⟨fun p hp ↦ (h.loose p hp).trans_le hbound, fun hsigned ↦ ?_⟩
  obtain ⟨hsign | hsign, hdepth⟩ := h.signed hsigned
  · exact ⟨.inr (hlevel hsign), hdepth⟩
  · exact ⟨.inr (hlevel' hsign), hdepth⟩

/-- No sign stands before a term that may have one of its own. -/
theorem Admits.signed_eq_false {limit : Int} {level : Level} {pending : List Pending} {depth : Nat}
    {signed : Bool} (h : Admits limit level pending depth signed) (hpower : level ≠ .power)
    (helement : level ≠ .element) : signed = false := by
  by_contra hsigned
  obtain ⟨hlevel | hlevel, _⟩ := h.signed (Bool.of_not_eq_false hsigned)
  · exact hpower hlevel
  · exact helement hlevel

end Reading

namespace Scope

variable {scope : Scope} {stop : Nat} {finished : List Finished} {enclosures : List Enclosure}
  {pending : List Pending} {signed : Bool} {depth position : Nat} {level : Level}
  {rest : List Placed}

theorem readFrom_operator {s : Reading} {e : Expr} (hs : s.awaited = .operator e) (token : Token) :
    scope.readFrom stop s (⟨token, position⟩ :: rest) =
      s.operatorTokenStep e token position >>= fun s ↦ scope.readFrom stop s rest := by
  rw [readFrom]
  simp only [hs]
  cases s.operatorTokenStep e token position <;> rfl

/-- The reader asks for the depth of an operand only if no sign stands before it. -/
theorem checkDepth_eq (hdepth : depth = 1 + Pending.depth pending + Enclosure.depth enclosures)
    (h : Reading.Admits scope.limit level pending depth signed) :
    Reading.checkDepth ⟨finished, enclosures, pending, .operand signed⟩ scope.limit signed
      position = scope.checkDepth depth position := by
  have hs : Reading.depth ⟨finished, enclosures, pending, .operand signed⟩ = depth := hdepth.symm
  rw [Reading.checkDepth, hs, checkDepth]
  cases signed with
  | false => simp
  | true =>
    have hle := Int.not_lt.2 (h.signed rfl).2
    rw [if_neg hle]
    rfl

theorem readFrom_operand
    (hdepth : depth = 1 + Pending.depth pending + Enclosure.depth enclosures)
    (h : Reading.Admits scope.limit level pending depth signed) {token : Token}
    (htoken : ∀ text, token ≠ .name text) :
    scope.readFrom stop ⟨finished, enclosures, pending, .operand signed⟩
        (⟨token, position⟩ :: rest) =
      scope.checkDepth depth position >>= fun _ ↦
        Reading.operandTokenStep ⟨finished, enclosures, pending, .operand signed⟩ signed token
          position >>= fun s ↦ scope.readFrom stop s rest := by
  rw [readFrom]
  simp only [checkDepth_eq hdepth h]
  cases scope.checkDepth depth position with
  | error e => rfl
  | ok _ =>
    cases token with
    | name text => exact absurd rfl (htoken text)
    | _ =>
      cases hstep : Reading.operandTokenStep ⟨finished, enclosures, pending, .operand signed⟩ signed
        _ position <;> simp only [hstep] <;> rfl

theorem readFrom_name (hdepth : depth = 1 + Pending.depth pending + Enclosure.depth enclosures)
    (h : Reading.Admits scope.limit level pending depth signed) {text : String}
    (hfree : scope.functions.find? text = none) :
    scope.readFrom stop ⟨finished, enclosures, pending, .operand signed⟩
        (⟨.name text, position⟩ :: rest) =
      scope.checkDepth depth position >>= fun _ ↦ scope.refer text position >>= fun r ↦
        scope.readFrom stop ⟨finished, enclosures, pending, .operator (.name r)⟩ rest := by
  have hmeaning : ∀ f, scope.meaning text ≠ .function f := by
    intro f
    rw [meaning, hfree]
    cases scope.variables.find? text <;> simp
  rw [readFrom]
  simp only [checkDepth_eq hdepth h, refer]
  cases scope.checkDepth depth position with
  | error e => rfl
  | ok _ =>
    cases hm : scope.meaning text with
    | function f => exact absurd hm (hmeaning f)
    | «variable» | unknown => simp only [hm]; rfl

/-- A name that may be called is a function or stands for nothing. -/
theorem Callable.meaning_ne {text : String} (h : scope.Callable text) (slot : Nat) :
    scope.meaning text ≠ .variable slot := by
  unfold meaning
  rcases h with hfind | hhas
  · obtain ⟨f, hf⟩ := Option.isSome_iff_exists.1 hfind
    simp [hf]
  · have hnone : scope.variables.find? text = none := by
      simpa [Environment.has] using hhas
    cases scope.functions.find? text <;> simp [hnone]

theorem readFrom_callNone (hdepth : depth = 1 + Pending.depth pending + Enclosure.depth enclosures)
    (h : Reading.Admits scope.limit level pending depth signed) {text : String}
    {opening closing : Nat} (hcallable : scope.Callable text) :
    scope.readFrom stop ⟨finished, enclosures, pending, .operand signed⟩
        (⟨.name text, position⟩ :: ⟨.opening, opening⟩ :: ⟨.closing, closing⟩ :: rest) =
      scope.checkDepth depth position >>= fun _ ↦ scope.callee text position >>= fun f ↦
        Reading.closeBracket (.call f position) [] >>= fun e ↦
          scope.readFrom stop ⟨finished, enclosures, pending, .operator e⟩ rest := by
  rw [readFrom]
  simp only [checkDepth_eq hdepth h, callee]
  cases scope.checkDepth depth position with
  | error e => rfl
  | ok _ =>
    cases hm : scope.meaning text with
    | function f =>
      simp only [hm]
      show _ = Reading.closeBracket (.call f position) [] >>= _
      cases Reading.closeBracket (.call f position) [] <;> rfl
    | «variable» slot => exact absurd hm (hcallable.meaning_ne slot)
    | unknown => simp only [hm]; rfl

theorem readFrom_call (hdepth : depth = 1 + Pending.depth pending + Enclosure.depth enclosures)
    (h : Reading.Admits scope.limit level pending depth signed) {text : String} {opening : Nat}
    (hcallable : scope.Callable text) (hrest : ∀ p us, rest ≠ ⟨.closing, p⟩ :: us) :
    scope.readFrom stop ⟨finished, enclosures, pending, .operand signed⟩
        (⟨.name text, position⟩ :: ⟨.opening, opening⟩ :: rest) =
      scope.checkDepth depth position >>= fun _ ↦ scope.callee text position >>= fun f ↦
        scope.readFrom stop
          ⟨finished, ⟨.call f position, [], pending⟩ :: enclosures, [], .operand false⟩ rest := by
  rw [readFrom]
  simp only [checkDepth_eq hdepth h, callee]
  cases scope.checkDepth depth position with
  | error e => rfl
  | ok _ =>
    cases hm : scope.meaning text with
    | function f =>
      simp only [hm]
      rfl
    | «variable» slot => exact absurd hm (hcallable.meaning_ne slot)
    | unknown => simp only [hm]; rfl

/-! ## Steps behind a term -/

variable {e : Expr}

/-- An operator completes the term in front of it. -/
theorem readFrom_binary {op : Operator}
    (he : ∀ q ∈ e.edge, op.closes ≤ q.strength)
    (hpending : ∀ q ∈ pending.head?, q.strength < op.closes) :
    scope.readFrom stop ⟨finished, enclosures, e.edge ++ pending, .operator e.tip⟩
        (⟨.operator op, position⟩ :: rest) =
      scope.readFrom stop
        ⟨finished, enclosures, .binary op position e :: pending, .operand false⟩ rest := by
  rw [readFrom_operator rfl]
  show scope.readFrom stop (Reading.operatorStep _ _ op position) rest = _
  rw [Reading.operatorStep, Pending.close_append _ he hpending, Pending.closeAll_edge]
  rfl

/-- An equals sign behind a name makes it a target. -/
theorem readFrom_equals {r : Reference} (hpending : ∀ q ∈ pending.head?, q.strength < 1) :
    scope.readFrom stop ⟨finished, enclosures, pending, .operator (.name r)⟩
        (⟨.equals, position⟩ :: rest) =
      scope.readFrom stop ⟨finished, enclosures, .assign r :: pending, .operand false⟩ rest := by
  have hclose : Pending.close 1 ([] ++ pending) (.name r) =
      (Pending.closeAll [] (.name r), pending) := Pending.close_append _ (by simp) hpending
  rw [List.nil_append] at hclose
  rw [readFrom_operator rfl]
  show (Reading.equalsStep _ (.name r) >>= _) = _
  rw [Reading.equalsStep]
  simp only [hclose]
  rfl

/-- A comma in brackets completes an item. -/
theorem readFrom_comma {opener : Opener} {items : List Expr} {outer : List Pending} :
    scope.readFrom stop
        ⟨finished, ⟨opener, items, outer⟩ :: enclosures, e.edge ++ [], .operator e.tip⟩
        (⟨.comma, position⟩ :: rest) =
      scope.readFrom stop
        ⟨finished, ⟨opener, items ++ [e], outer⟩ :: enclosures, [], .operand false⟩ rest := by
  rw [readFrom_operator rfl, List.append_nil]
  show scope.readFrom stop (Reading.commaStep _ _ position) rest = _
  simp only [Reading.commaStep, Pending.closeAll_edge]

/-- A comma outside brackets completes a statement. -/
theorem readFrom_comma_outside :
    scope.readFrom stop ⟨finished, [], e.edge ++ [], .operator e.tip⟩
        (⟨.comma, position⟩ :: rest) =
      scope.readFrom stop ⟨finished ++ [⟨e, position⟩], [], [], .operand false⟩ rest := by
  rw [readFrom_operator rfl, List.append_nil]
  show scope.readFrom stop (Reading.commaStep _ _ position) rest = _
  simp only [Reading.commaStep, Pending.closeAll_edge]

/-- A closing bracket completes the last item. -/
theorem readFrom_closing {opener : Opener} {items : List Expr} {outer : List Pending} :
    scope.readFrom stop
        ⟨finished, ⟨opener, items, outer⟩ :: enclosures, e.edge ++ [], .operator e.tip⟩
        (⟨.closing, position⟩ :: rest) =
      Reading.closeBracket opener (items ++ [e]) >>= fun operand ↦
        scope.readFrom stop ⟨finished, enclosures, outer, .operator operand⟩ rest := by
  rw [readFrom_operator rfl, List.append_nil]
  simp only [Reading.operatorTokenStep, Reading.closingStep, Pending.closeAll_edge]
  cases Reading.closeBracket opener (items ++ [e]) <;> rfl

/-- A call that is complete is an operand. -/
theorem readFrom_closed_call (f : Function) (es : List Expr) :
    (Reading.closeBracket (.call f position) es >>= fun e ↦
      scope.readFrom stop ⟨finished, enclosures, e.edge ++ pending, .operator e.tip⟩ rest) =
    Reading.closeBracket (.call f position) es >>= fun e ↦
      scope.readFrom stop ⟨finished, enclosures, pending, .operator e⟩ rest := by
  rw [Reading.closeBracket]
  split <;> rfl

end Scope

/-! ## Terms -/

/-- What waits along the right edge of a term binds as tightly as the level of the term asks. -/
theorem Parses.least_le {scope : Scope} {level : Level} {ts : List Placed} {t : Term}
    (h : Parses level ts t) :
    ∀ {depth : Nat} {e : Expr}, scope.Resolves depth t e →
      ∀ q ∈ e.edge, level.least ≤ q.strength := by
  induction h with
  | number | name | group | callNone | call =>
    rintro depth e ⟨⟩
    simp [Expr.edge]
  | base _ ih | unsigned _ ih | factor _ ih | addend _ ih | value _ ih =>
    intro depth e he q hq
    exact Nat.le_trans (by decide) (ih he q hq)
  | negate _ ih =>
    rintro depth e ⟨⟩
    next hoperand =>
      rw [Expr.edge, List.forall_mem_append, List.forall_mem_singleton]
      exact ⟨ih hoperand, le_rfl⟩
  | pow _ _ _ ih =>
    rintro depth e ⟨⟩
    next _ hr =>
      rw [Expr.edge, List.forall_mem_append, List.forall_mem_singleton]
      exact ⟨ih hr, by simp [Level.least, Pending.strength, Operator.strength]⟩
  | times hlevel _ _ _ ih | plus hlevel _ _ _ ih =>
    rintro depth e ⟨⟩
    next _ hr =>
      rw [Expr.edge, List.forall_mem_append, List.forall_mem_singleton]
      exact ⟨fun q hq ↦ Nat.le_trans (by decide) (ih hr q hq), Operator.strength_of_level hlevel⟩
  | assign _ ih =>
    intro depth e he q hq
    exact Nat.zero_le _

/-- The tokens of a term do not begin with a closing bracket. -/
theorem Parses.ne_closing {level : Level} {ts : List Placed} {t : Term} (h : Parses level ts t) :
    ∀ rest position us, ts ++ rest ≠ ⟨.closing, position⟩ :: us := by
  induction h with
  | pow _ _ ih | times _ _ _ ih | plus _ _ _ ih =>
    intro rest position us
    rw [List.append_assoc]
    exact ih _ position us
  | base _ ih | unsigned _ ih | factor _ ih | addend _ ih | value _ ih => exact ih
  | _ => simp

/-- Wherever a term of the level may begin, reading its tokens comes to looking its names up and
going on behind it. -/
structure Scope.ReadsAs (scope : Scope) (stop : Nat) (level : Level) (ts : List Placed) (t : Term) :
    Prop where
  read : ∀ {finished : List Finished} {enclosures : List Enclosure} {pending : List Pending}
    {signed : Bool} {depth : Nat} (rest : List Placed),
    depth = 1 + Pending.depth pending + Enclosure.depth enclosures →
    Reading.Admits scope.limit level pending depth signed →
    scope.readFrom stop ⟨finished, enclosures, pending, .operand signed⟩ (ts ++ rest) =
      scope.resolve depth t >>= fun e ↦
        scope.readFrom stop ⟨finished, enclosures, e.edge ++ pending, .operator e.tip⟩ rest

namespace Scope

variable {scope : Scope} {stop : Nat}

theorem admits_nil (level : Level) (depth : Nat) :
    Reading.Admits scope.limit level [] depth false :=
  ⟨by simp, by simp⟩

/-- Items in brackets are read one after the other. -/
theorem readFrom_items {finished : List Finished} {enclosures : List Enclosure} {opener : Opener}
    {outer : List Pending} {depth : Nat} {items : List Item}
    (hdepth : depth = 1 + Pending.depth outer + Enclosure.depth enclosures)
    (h : ∀ i ∈ items, scope.ReadsAs stop .statement i.tokens i.term) :
    ∀ (es : List Expr) (rest : List Placed),
      scope.readFrom stop ⟨finished, ⟨opener, es, outer⟩ :: enclosures, [], .operand false⟩
          (Item.joined items ++ rest) =
        scope.resolveAll (depth + 1) (items.map Item.term) >>= fun es' ↦
          scope.readFrom stop ⟨finished, ⟨opener, es ++ es', outer⟩ :: enclosures, [],
            .operand false⟩ rest := by
  induction items with
  | nil =>
    intro es rest
    show _ = scope.readFrom stop ⟨finished, ⟨opener, es ++ [], outer⟩ :: enclosures, [],
      .operand false⟩ rest
    rw [List.append_nil]
    rfl
  | cons i items ih =>
    intro es rest
    obtain ⟨hi, hitems⟩ := List.forall_mem_cons.1 h
    have htokens : Item.joined (i :: items) ++ rest =
        i.tokens ++ ⟨.comma, i.comma⟩ :: (Item.joined items ++ rest) := by simp [Item.joined]
    have hinner := Pending.depth_enclose hdepth opener es
    rw [htokens, hi.read _ hinner (admits_nil _ _), List.map_cons, resolveAll, bind_assoc]
    refine bind_congr fun e ↦ ?_
    rw [readFrom_comma, ih hitems, bind_assoc]
    refine bind_congr fun es' ↦ ?_
    rw [List.append_assoc, pure_bind]
    rfl

theorem resolveAll_concat (depth : Nat) (ts : List Term) (t : Term) :
    scope.resolveAll depth (ts ++ [t]) =
      scope.resolveAll depth ts >>= fun es ↦ scope.resolve depth t >>= fun e ↦
        pure (es ++ [e]) := by
  induction ts with
  | nil =>
    rw [List.nil_append, resolveAll, resolveAll]
    rfl
  | cons u ts ih =>
    rw [List.cons_append, resolveAll, ih, resolveAll]
    simp only [bind_assoc, pure_bind, List.cons_append]

end Scope

namespace Scope.ReadsAs

variable {scope : Scope} {stop position : Nat} {ts : List Placed} {t : Term}

theorem number {numeral : List Char} :
    scope.ReadsAs stop .element [⟨.number numeral, position⟩] (.number numeral position) := by
  refine ⟨fun {finished enclosures pending signed depth} rest hdepth hadmits ↦ ?_⟩
  rw [List.singleton_append, readFrom_operand hdepth hadmits (by simp), resolve, bind_assoc]
  rfl

theorem name {text : String} (hfree : scope.functions.find? text = none) :
    scope.ReadsAs stop .element [⟨.name text, position⟩] (.name text position) := by
  refine ⟨fun {finished enclosures pending signed depth} rest hdepth hadmits ↦ ?_⟩
  rw [List.singleton_append, readFrom_name hdepth hadmits hfree, resolve, bind_assoc]
  simp only [bind_assoc, pure_bind]
  rfl

/-- The brackets around a statement keep away what waits in front of them. -/
theorem group {closing : Nat} (h : scope.ReadsAs stop .statement ts t) :
    scope.ReadsAs stop .element (⟨.opening, position⟩ :: (ts ++ [⟨.closing, closing⟩]))
      (.group position t) := by
  refine ⟨fun {finished enclosures pending signed depth} rest hdepth hadmits ↦ ?_⟩
  have hinner := Pending.depth_enclose hdepth (.group position) []
  rw [List.cons_append, readFrom_operand hdepth hadmits (by simp), resolve]
  simp only [bind_assoc, pure_bind]
  refine bind_congr fun _ ↦ ?_
  show scope.readFrom stop ⟨finished, ⟨.group position, [], pending⟩ :: enclosures, [],
    .operand false⟩ (ts ++ [⟨.closing, closing⟩] ++ rest) = _
  rw [List.append_assoc, h.read _ hinner (admits_nil _ _)]
  refine bind_congr fun e ↦ ?_
  rw [List.singleton_append, readFrom_closing]
  rfl

theorem callNone {text : String} {opening closing : Nat} (hcallable : scope.Callable text) :
    scope.ReadsAs stop .element [⟨.name text, position⟩, ⟨.opening, opening⟩, ⟨.closing, closing⟩]
      (.call text position []) := by
  refine ⟨fun {finished enclosures pending signed depth} rest hdepth hadmits ↦ ?_⟩
  show scope.readFrom stop _
    (⟨.name text, position⟩ :: ⟨.opening, opening⟩ :: ⟨.closing, closing⟩ :: rest) = _
  rw [readFrom_callNone hdepth hadmits hcallable, resolve]
  simp only [bind_assoc]
  refine bind_congr fun _ ↦ bind_congr fun f ↦ ?_
  rw [resolveAll, ok_bind, readFrom_closed_call]

theorem call {text : String} {opening closing : Nat} {items : List Item}
    (hcallable : scope.Callable text)
    (hparses : ∀ i ∈ items, Parses .statement i.tokens i.term) (hlast : Parses .statement ts t)
    (hitems : ∀ i ∈ items, scope.ReadsAs stop .statement i.tokens i.term)
    (h : scope.ReadsAs stop .statement ts t) :
    scope.ReadsAs stop .element (⟨.name text, position⟩ :: ⟨.opening, opening⟩ ::
        (Item.joined items ++ (ts ++ [⟨.closing, closing⟩])))
      (.call text position (items.map Item.term ++ [t])) := by
  refine ⟨fun {finished enclosures pending signed depth} rest hdepth hadmits ↦ ?_⟩
  have htokens : ⟨.name text, position⟩ :: ⟨.opening, opening⟩ ::
      (Item.joined items ++ (ts ++ [⟨.closing, closing⟩])) ++ rest =
    ⟨.name text, position⟩ :: ⟨.opening, opening⟩ ::
      (Item.joined items ++ (ts ++ ⟨.closing, closing⟩ :: rest)) := by simp
  -- The reader tells a call without arguments by the bracket that follows at once.
  have hrest : ∀ p us, Item.joined items ++ (ts ++ ⟨.closing, closing⟩ :: rest) ≠
      ⟨.closing, p⟩ :: us := by
    cases items with
    | nil => exact hlast.ne_closing _
    | cons i items =>
      intro p us
      have hi := (hparses i (List.mem_cons_self ..)).ne_closing
      simpa [Item.joined] using hi (⟨.comma, i.comma⟩ ::
        (Item.joined items ++ (ts ++ ⟨.closing, closing⟩ :: rest))) p us
  rw [htokens, readFrom_call hdepth hadmits hcallable hrest, resolve]
  simp only [bind_assoc]
  refine bind_congr fun _ ↦ bind_congr fun f ↦ ?_
  rw [readFrom_items hdepth hitems, resolveAll_concat, bind_assoc]
  refine bind_congr fun es ↦ ?_
  have hinner := Pending.depth_enclose hdepth (.call f position) ([] ++ es)
  rw [h.read _ hinner (admits_nil _ _), bind_assoc]
  refine bind_congr fun e ↦ ?_
  rw [readFrom_closing, pure_bind, readFrom_closed_call, List.nil_append]

/-- A term of a level is read as such where a looser level is asked for. -/
theorem mono {level level' : Level} (h : scope.ReadsAs stop level' ts t)
    (hbound : level.bound ≤ level'.bound) (hlevel : level = .power → level' = .element)
    (hlevel' : level = .element → level' = .element) : scope.ReadsAs stop level ts t :=
  ⟨fun rest hdepth hadmits ↦ h.read rest hdepth (hadmits.mono hbound hlevel hlevel')⟩

/-- The depth is asked for once, at the sign, and not again at what the sign stands before. -/
theorem negate (h : scope.ReadsAs stop .power ts t) :
    scope.ReadsAs stop .signed (⟨.operator .sub, position⟩ :: ts) (.negate position t) := by
  refine ⟨fun {finished enclosures pending signed depth} rest hdepth hadmits ↦ ?_⟩
  obtain rfl : signed = false := hadmits.signed_eq_false (by simp) (by simp)
  rw [List.cons_append, readFrom_operand hdepth hadmits (by simp), resolve]
  simp only [bind_assoc, pure_bind]
  cases hcheck : scope.checkDepth depth position with
  | error e => rfl
  | ok _ =>
    have hle : (depth : Int) ≤ scope.limit := checkDepth_ok hcheck
    have hdepth' : depth = 1 + Pending.depth (.sign position :: pending) +
        Enclosure.depth enclosures := by rw [Pending.depth_cons]; exact hdepth
    rw [ok_bind, ok_bind]
    show scope.readFrom stop ⟨finished, enclosures, .sign position :: pending, .operand true⟩
      (ts ++ rest) = _
    rw [h.read rest hdepth' ⟨fun p _ ↦ p.strength_lt, fun _ ↦ ⟨.inl rfl, hle⟩⟩]
    refine bind_congr fun e ↦ ?_
    rw [Expr.edge, Expr.tip, List.append_assoc]
    rfl

/-- Two operands with an operator between them are read as one term. -/
theorem binary {level left right : Level} {op : Operator} {ls rs : List Placed} {l r : Term}
    (hlevel : op.level = level) (hbound : level.bound ≤ left.bound)
    (hpower : level = .power → left = .element) (helement : level = .element → left = .element)
    (hright : op.level.bound ≤ left.least ∧ op.strength < right.bound)
    (hl : Parses left ls l) (hls : scope.ReadsAs stop left ls l)
    (hrs : scope.ReadsAs stop right rs r) :
    scope.ReadsAs stop level (ls ++ ⟨.operator op, position⟩ :: rs) (.binary op position l r) := by
  refine ⟨fun {finished enclosures pending signed depth} rest hdepth hadmits ↦ ?_⟩
  rw [List.append_assoc, List.cons_append, hls.read _ hdepth (hadmits.mono hbound hpower helement),
    resolve]
  simp only [bind_assoc, pure_bind]
  cases hresolve : scope.resolve depth l with
  | error e => rfl
  | ok e =>
    have hedge : ∀ q ∈ e.edge, op.closes ≤ q.strength := by
      intro q hq
      have hleast := hl.least_le (resolves_of_resolve l hresolve) q hq
      calc op.closes = op.level.bound := Operator.closes_of_level rfl
        _ ≤ left.least := hright.1
        _ ≤ q.strength := hleast
    have hpending : ∀ q ∈ pending.head?, q.strength < op.closes := fun q hq ↦
      (hadmits.loose q hq).trans_eq (Operator.closes_of_level hlevel).symm
    -- Only behind a power do operands nest one deeper.
    have hdepth' : (if op = .pow then depth + 1 else depth) =
        1 + Pending.depth (.binary op position e :: pending) + Enclosure.depth enclosures := by
      rw [Pending.depth_cons, hdepth]
      cases op <;> simp [Pending.deepens]; omega
    rw [ok_bind, ok_bind, readFrom_binary hedge hpending,
      hrs.read rest hdepth' ⟨by simpa [Pending.strength] using hright.2, by simp⟩]
    refine bind_congr fun e' ↦ ?_
    rw [Expr.edge, Expr.tip, List.append_assoc]
    rfl

/-- The name in front of an equals sign is looked up, and then waits for its value. -/
theorem assign {text : String} {equals : Nat} (hfree : scope.functions.find? text = none)
    (h : scope.ReadsAs stop .statement ts t) :
    scope.ReadsAs stop .statement (⟨.name text, position⟩ :: ⟨.equals, equals⟩ :: ts)
      (.assign text position t) := by
  refine ⟨fun {finished enclosures pending signed depth} rest hdepth hadmits ↦ ?_⟩
  obtain rfl : signed = false := hadmits.signed_eq_false (by simp) (by simp)
  show scope.readFrom stop _
    (⟨.name text, position⟩ :: ⟨.equals, equals⟩ :: (ts ++ rest)) = _
  rw [readFrom_name hdepth hadmits hfree, resolve]
  simp only [bind_assoc, pure_bind]
  refine bind_congr fun _ ↦ bind_congr fun target ↦ ?_
  have hdepth' : depth = 1 + Pending.depth (.assign target :: pending) +
      Enclosure.depth enclosures := by rw [Pending.depth_cons]; exact hdepth
  have hassign : Reading.Admits scope.limit .statement (.assign target :: pending) depth false :=
    ⟨by simp [Pending.strength, Level.bound], by simp⟩
  rw [readFrom_equals hadmits.loose, h.read rest hdepth' hassign]
  refine bind_congr fun e ↦ ?_
  rw [Expr.edge, Expr.tip, List.append_assoc]
  rfl

end Scope.ReadsAs

/-- **The reader follows the grammar.** -/
theorem Parses.readsAs {scope : Scope} {level : Level} {ts : List Placed} {t : Term}
    (h : Parses level ts t) (stop : Nat) (hfits : t.Fits scope) :
    scope.ReadsAs stop level ts t := by
  induction h with
  | number => exact .number
  | name => exact .name (Term.names_name.1 hfits)
  | group _ ih => exact .group (ih (Term.names_group.1 hfits))
  | callNone => exact .callNone (Term.names_call.1 hfits).1
  | call hall hlast iha ihl =>
    obtain ⟨hcallable, hfits⟩ := Term.names_call.1 hfits
    rw [List.forall_mem_append, List.forall_mem_map, List.forall_mem_singleton] at hfits
    exact .call hcallable hall hlast (fun i hi ↦ iha i hi (hfits.1 i hi)) (ihl hfits.2)
  | base _ ih => exact (ih hfits).mono le_rfl (fun _ ↦ rfl) (by simp)
  | unsigned _ ih => exact (ih hfits).mono le_rfl (by simp) (by simp)
  | factor _ ih | addend _ ih | value _ ih =>
    exact (ih hfits).mono (by decide) (by simp) (by simp)
  | negate _ ih => exact .negate (ih (Term.names_negate.1 hfits))
  | pow hl _ ihl ihr =>
    obtain ⟨hfitsl, hfitsr⟩ := Term.names_binary.1 hfits
    exact .binary rfl (by decide) (fun _ ↦ rfl) (fun _ ↦ rfl) (by decide) hl (ihl hfitsl)
      (ihr hfitsr)
  | @times op _ _ _ _ _ hlevel hl _ ihl ihr =>
    obtain ⟨hfitsl, hfitsr⟩ := Term.names_binary.1 hfits
    have hright : Level.product.bound ≤ Level.product.least := by decide
    refine .binary hlevel le_rfl (by simp) (by simp) ⟨?_, ?_⟩ hl (ihl hfitsl) (ihr hfitsr)
    · rw [hlevel]
      exact hright
    · cases op <;> decide
  | @plus op _ _ _ _ _ hlevel hl _ ihl ihr =>
    obtain ⟨hfitsl, hfitsr⟩ := Term.names_binary.1 hfits
    have hright : Level.sum.bound ≤ Level.sum.least := by decide
    refine .binary hlevel le_rfl (by simp) (by simp) ⟨?_, ?_⟩ hl (ihl hfitsl) (ihr hfitsr)
    · rw [hlevel]
      exact hright
    · revert hlevel
      cases op <;> decide
  | assign _ ih =>
    obtain ⟨hfree, hfits⟩ := Term.names_assign.1 hfits
    exact .assign hfree (ih hfits)

/-! ## Texts -/

namespace Scope

variable {scope : Scope}

/-- Statements outside brackets are read one after the other. -/
theorem readFrom_statements {stop : Nat} {items : List Item}
    (h : ∀ i ∈ items, scope.ReadsAs stop .statement i.tokens i.term) :
    ∀ (finished : List Finished) (rest : List Placed),
      scope.readFrom stop ⟨finished, [], [], .operand false⟩ (Item.joined items ++ rest) =
        scope.resolveFinished (items.map fun i ↦ (i.term, i.comma)) >>= fun finished' ↦
          scope.readFrom stop ⟨finished ++ finished', [], [], .operand false⟩ rest := by
  induction items with
  | nil =>
    intro finished rest
    show _ = scope.readFrom stop ⟨finished ++ [], [], [], .operand false⟩ rest
    rw [List.append_nil]
    rfl
  | cons i items ih =>
    intro finished rest
    obtain ⟨hi, hitems⟩ := List.forall_mem_cons.1 h
    have htokens : Item.joined (i :: items) ++ rest =
        i.tokens ++ ⟨.comma, i.comma⟩ :: (Item.joined items ++ rest) := by simp [Item.joined]
    have hdepth : 1 = 1 + Pending.depth [] + Enclosure.depth [] := rfl
    rw [htokens, hi.read _ hdepth (admits_nil _ _), List.map_cons, resolveFinished, bind_assoc]
    refine bind_congr fun e ↦ ?_
    rw [readFrom_comma_outside, ih hitems, bind_assoc]
    refine bind_congr fun finished' ↦ ?_
    rw [List.append_assoc, pure_bind]
    rfl

/-- **Reading a text comes to looking up the names of its tree.** -/
theorem read_eq {text : String} {script : Script}
    (h : Script.Parses (Placed.scan 0 text.toList) script)
    (hfits : ∀ t ∈ script.statements, t.Fits scope) :
    scope.read text = scope.resolveScript script := by
  rw [read]
  generalize text.length = stop
  generalize Placed.scan 0 text.toList = ts at h
  obtain @⟨items, ts, t, hall, hlast⟩ := h
  rw [Script.statements, List.forall_mem_append, List.forall_mem_singleton] at hfits
  have hitems : ∀ i ∈ items, scope.ReadsAs stop .statement i.tokens i.term := fun i hi ↦
    (hall i hi).readsAs stop (hfits.1 i.term (by simpa using ⟨i, hi, rfl⟩))
  show scope.readFrom stop ⟨[], [], [], .operand false⟩ (Item.joined items ++ ts) = _
  rw [readFrom_statements hitems, resolveScript]
  refine bind_congr fun finished ↦ ?_
  have hdepth : 1 = 1 + Pending.depth [] + Enclosure.depth [] := rfl
  rw [List.nil_append, ← List.append_nil ts,
    (hlast.readsAs stop hfits.2).read _ hdepth (admits_nil _ _)]
  refine bind_congr fun e ↦ ?_
  rw [readFrom, List.append_nil]
  simp only [Reading.finish, Pending.closeAll_edge]
  rfl

end Scope

end Reckoner
