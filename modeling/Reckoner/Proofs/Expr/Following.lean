import Reckoner.Proofs.Expr.Balance
import Reckoner.Proofs.Expr.ReadAt
import Reckoner.Proofs.Expr.Targets

/-!
# The descent follows the reader

The descent keeps what waits for a term on its own call stack, and the reader keeps it in its state.
So what a function of the descent does is compared with the reader in every state that admits a term
of the level (`Follows`): the function refuses where the reader does, with the same error, or
returns a place from which the reader goes on, holding an expression whose code was emitted
(`Written`) and behind which no term of the level goes on (`Ends`).

What was emitted is, with its two counters, what would be if the code of the expression were emitted
at once (`Emitted.emitAll`).  An instruction that was taken out again can only have raised the
greatest depth (`Emitted.popLast_emit`), and never beyond what the rest reaches.

`Descent.follows_term` and `Descent.follows_statements` say this of the functions.  They recurse as
the functions do; the step of each function is a lemma of its own, which takes the calls that the
function makes as hypotheses.
-/

set_option autoImplicit false

namespace Reckoner

open Decimal

/-! ## Emitting code -/

namespace Emitted

/-- Emits several instructions. -/
def emitAll (emitted : Emitted) (code : Code) : Emitted := code.foldl emit emitted

/-- A depth was reached in between. -/
def raise (emitted : Emitted) (depth : Int) : Emitted :=
  { emitted with deepest := max emitted.deepest depth }

variable (emitted : Emitted)

theorem emitAll_append (c d : Code) : emitted.emitAll (c ++ d) = (emitted.emitAll c).emitAll d :=
  List.foldl_append

theorem emitAll_concat (code : Code) (i : Instruction) :
    emitted.emitAll (code ++ [i]) = (emitted.emitAll code).emit i :=
  emitted.emitAll_append code [i]

@[simp] theorem code_emitAll (code : Code) : (emitted.emitAll code).code = emitted.code ++ code := by
  induction code generalizing emitted with
  | nil => exact (List.append_nil _).symm
  | cons i code ih => exact (ih (emitted.emit i)).trans (List.append_assoc ..)

@[simp] theorem depth_emitAll (code : Code) :
    (emitted.emitAll code).depth = emitted.depth + Code.effect code := by
  induction code generalizing emitted with
  | nil => exact (add_zero _).symm
  | cons i code ih => exact (ih (emitted.emit i)).trans (add_assoc ..)

theorem depth_emit_le (i : Instruction) : (emitted.emit i).depth ≤ (emitted.emit i).deepest :=
  le_max_right _ _

/-- The greatest depth is that of the code, if the depth was counted before. -/
theorem deepest_emitAll (h : emitted.depth ≤ emitted.deepest) (code : Code) :
    (emitted.emitAll code).deepest = max emitted.deepest (Code.peak code emitted.depth) := by
  induction code generalizing emitted with
  | nil => exact (max_eq_left h).symm
  | cons i code ih =>
    have hstart := Code.effect_take_le_peak code (emitted.emit i).depth 0
    rw [List.take_zero, Code.effect_nil, add_zero] at hstart
    have hrest := ih (emitted.emit i) (emitted.depth_emit_le i)
    rw [emitAll, List.foldl_cons]
    refine hrest.trans ?_
    rw [Code.peak_cons]
    simp only [emit] at hstart ⊢
    omega

theorem emitAll_raise (depth : Int) (code : Code) :
    (emitted.raise depth).emitAll code = (emitted.emitAll code).raise depth := by
  induction code generalizing emitted with
  | nil => rfl
  | cons i code ih =>
    have hemit : (emitted.raise depth).emit i = (emitted.emit i).raise depth := by
      simp only [emit, raise, max_right_comm]
    rw [emitAll, List.foldl_cons, hemit]
    exact ih (emitted.emit i)

theorem raise_of_le {depth : Int} (h : depth ≤ emitted.deepest) : emitted.raise depth = emitted := by
  rw [raise, max_eq_left h]

/-- What is taken out leaves the depth that it reached. -/
theorem popLast_emit (i : Instruction) :
    (emitted.emit i).popLast = emitted.raise (emitted.depth + i.operation.effect) := by
  simp [popLast, emit, raise]

theorem changeLast_emit (value value' : Value) (position position' : Int) :
    (emitted.emit ⟨.constant value, position⟩).changeLast value' position' =
      emitted.emit ⟨.constant value', position'⟩ := by
  simp [changeLast, emit, Operation.effect]

/-- What pushes a value does not look at what was reached before it. -/
theorem emitAll_raise_of_effect {code : Code} (h : Code.effect code = 1) (i : Instruction)
    (hi : i.operation.effect = 0) :
    ((emitted.raise (emitted.depth + 1)).emitAll code).emit i = emitted.emitAll (code ++ [i]) := by
  have hle : emitted.depth + 1 ≤ (emitted.emitAll (code ++ [i])).deepest := by
    have hdepth := (emitted.emitAll code).depth_emit_le i
    rwa [← emitAll_concat, depth_emitAll, Code.effect_append, h, Code.effect_cons, hi] at hdepth
  rw [← emitAll_concat, emitAll_raise, raise_of_le _ hle]

end Emitted

/-! ## Following the reader -/

/-- A result of the descent is what the reader comes to wherever it is admitted: the same refusal,
at a place of the text, or a place from which the reader goes on, holding what was read. -/
inductive Follows {σ β : Type} (scope : Scope) (text : List Char) (admits : σ → Prop) {index : Nat}
    (reads : Advance text index → β → Prop) (behind : σ → β → Reading)
    (read : σ → Except CompileError Sequence) : Except Halt (Advance text index) → Prop
  | refused {error : CompileError} (position_le : error.position ≤ text.length)
    (refuses : ∀ s, admits s → read s = .error error) :
    Follows scope text admits reads behind read (.error (.refused error))
  | advance {a : Advance text index} {b : β} (holds : reads a b)
    (goesOn : ∀ s, admits s → read s = scope.readAt text (behind s b) a.stop) :
    Follows scope text admits reads behind read (.ok a)

/-- One function of the descent calls another.  The reader is then where the other one is admitted,
and goes on from there. -/
theorem Follows.bind {scope : Scope} {text : List Char} {σ σ' β β' : Type} {index index' : Nat}
    {admits : σ → Prop} {reads : Advance text index → β → Prop} {behind : σ → β → Reading}
    {read : σ → Except CompileError Sequence} {admits' : σ' → Prop}
    {reads' : Advance text index' → β' → Prop} {behind' : σ' → β' → Reading}
    {read' : σ' → Except CompileError Sequence} {x : Except Halt (Advance text index)}
    {g : Advance text index → Except Halt (Advance text index')} (enter : σ' → σ)
    (hx : Follows scope text admits reads behind read x)
    (hadmits : ∀ s, admits' s → admits (enter s))
    (hread : ∀ s, admits' s → read' s = read (enter s))
    (hg : ∀ a b, reads a b → Follows scope text admits' reads' behind'
      (fun s ↦ scope.readAt text (behind (enter s) b) a.stop) (g a)) :
    Follows scope text admits' reads' behind' read' (x >>= g) := by
  cases hx with
  | refused hle hrefuses =>
    exact .refused hle fun s hs ↦ (hread s hs).trans (hrefuses _ (hadmits s hs))
  | @advance a b hholds hgoesOn =>
    have heq : ∀ s, admits' s → read' s = scope.readAt text (behind (enter s) b) a.stop :=
      fun s hs ↦ (hread s hs).trans (hgoesOn _ (hadmits s hs))
    show Follows scope text admits' reads' behind' read' (g a)
    generalize hresult : g a = result
    have hresult' := hg a b hholds
    rw [hresult] at hresult'
    cases hresult' with
    | refused hle hrefuses => exact .refused hle fun s hs ↦ (heq s hs).trans (hrefuses s hs)
    | advance hholds' hgoesOn' =>
      exact .advance hholds' fun s hs ↦ (heq s hs).trans (hgoesOn' s hs)

/-- What is read where more is admitted is read, and what is read as less is. -/
theorem Follows.mono {scope : Scope} {text : List Char} {σ β : Type} {index : Nat}
    {admits admits' : σ → Prop} {reads reads' : Advance text index → β → Prop}
    {behind : σ → β → Reading} {read : σ → Except CompileError Sequence}
    {x : Except Halt (Advance text index)}
    (hx : Follows scope text admits reads behind read x) (hadmits : ∀ s, admits' s → admits s)
    (hreads : ∀ a b, reads a b → reads' a b) :
    Follows scope text admits' reads' behind read x := by
  cases hx with
  | refused hle hrefuses => exact .refused hle fun s hs ↦ hrefuses s (hadmits s hs)
  | advance hholds hgoesOn =>
    exact .advance (hreads _ _ hholds) fun s hs ↦ hgoesOn s (hadmits s hs)

/-! ### Terms -/

/-- The code of an expression was emitted behind other code, and its right edge is that of a term
of the level. -/
structure Written {text : List Char} {index : Nat} (level : Level) (before : Emitted) (start : Nat)
    (a : Advance text index) (e : Expr) : Prop where
  /-- The code is that of the expression, and so are the depths. -/
  emitted_eq : a.emitted = before.emitAll e.code
  /-- It leaves one value. -/
  effect : Code.effect e.code = 1
  /-- All that waits along the right edge binds tightly enough. -/
  least : ∀ q ∈ e.edge, level.least ≤ q.strength
  /-- What is no assignment starts where it was read from. -/
  start_eq : level ≠ .statement → e.start = start

/-- No term of the level goes on at a place. -/
structure Ends (text : List Char) (level : Level) (index : Nat) : Prop where
  /-- An operator there is of a looser level. -/
  operator : ∀ op : Operator, text[index]? = some op.symbol → level.rank < op.level.rank
  /-- A statement does not end before an equals sign. -/
  equals : level = .statement → text[index]? ≠ some '='

/-- Behind a statement there is no operator. -/
theorem Ends.ne_operator {text : List Char} {index : Nat} (h : Ends text .statement index)
    (op : Operator) : text[index]? ≠ some op.symbol := by
  intro hop
  have hrank := h.operator op hop
  revert hrank
  cases op <;> decide

/-- The descent follows the reader through a term. -/
abbrev FollowsTerm (scope : Scope) (text : List Char) {index : Nat} (level : Level) (depth : Nat)
    (before : Emitted) (start : Nat) (read : Frame × Bool → Except CompileError Sequence) :
    Except Halt (Advance text index) → Prop :=
  Follows scope text (fun s : Frame × Bool ↦ s.1.Admits scope text level depth start s.2)
    (fun a e ↦ Written level before start a e ∧ Ends text level a.stop) (fun s e ↦ s.1.holds e) read

/-! ### Statements with commas -/

/-- The code of statements with commas between them, whose values but the last are dropped in a
sequence. -/
def Sequence.listing (sequence : Bool) (s : Sequence) : Code :=
  s.finished.flatMap (fun f ↦ f.statement.code ++
    if sequence then [⟨.discard, f.comma⟩] else []) ++ s.last.code

/-- The code of statements was emitted behind other code. -/
structure Listed {text : List Char} {index : Nat} (sequence : Bool) (before : Emitted)
    (a : Advance text index) (s : Sequence) : Prop where
  /-- The code is that of the statements, and so are the depths. -/
  emitted_eq : a.emitted = before.emitAll (s.listing sequence)
  /-- Each statement leaves one value. -/
  effect : ∀ e ∈ s.finished.map (·.statement) ++ [s.last], Code.effect e.code = 1
  /-- The last statement is complete. -/
  ends : Ends text .statement a.stop

/-- The descent follows the reader through statements. -/
abbrev FollowsAll (scope : Scope) (text : List Char) {index : Nat} (sequence : Bool) (depth : Nat)
    (before : Emitted) (read : Frame → Except CompileError Sequence) :
    Except Halt (Advance text index) → Prop :=
  Follows scope text (fun f : Frame ↦ f.pending = [] ∧ depth = f.depth)
    (fun a s ↦ Listed sequence before a s ∧ text[a.stop]? ≠ some ',')
    (fun f s ↦ (f.separatesAll s.finished).holds s.last) read

section

variable {scope : Scope} {text : List Char} {level : Level} {depth index : Nat} {f : Frame}
  {signed : Bool} {e : Expr}

/-- What waits is completed by what is held. -/
theorem Frame.holds_waits (p : Pending) : (f.waits p).holds e = f.holds (p.complete e) := by
  cases p <;> simp [holds, waits, Pending.complete, Expr.edge, Expr.tip]

/-- A sign leaves the depth of the stack as it is. -/
theorem effect_negateCode (position : Nat) (code : Code) :
    Code.effect (negateCode position code) = Code.effect code := by
  rcases negateCode_cases position code with ⟨init, value, origin, rfl, h⟩ |
    ⟨init, origin, rfl, h⟩ | ⟨_, h⟩ <;> simp [h, Operation.effect]

/-- Code that pushes a value ends with an instruction. -/
theorem exists_concat_of_effect {code : Code} (h : Code.effect code = 1) :
    ∃ init i, code = init ++ [i] := by
  refine (List.eq_nil_or_concat' code).resolve_left ?_
  rintro rfl
  cases h

/-- A sign is put behind the code of an expression without looking further back, and finds an
opposite. -/
theorem negated_emitAll (position : Nat) (before : Emitted) (he : Code.effect e.code = 1) :
    negated position (before.emitAll e.code) =
      .ok (before.emitAll (negateCode position e.code)) := by
  obtain ⟨init, ⟨operation, origin⟩, hcode⟩ := exists_concat_of_effect he
  have hlast : (before.emitAll e.code).code.getLast? = some ⟨operation, origin⟩ := by
    rw [Emitted.code_emitAll, hcode, ← List.append_assoc, List.getLast?_concat]
  rw [negated, hlast]
  cases operation with
  | constant value =>
    have hmem : ⟨.constant value, origin⟩ ∈ e.code := by simp [hcode]
    obtain ⟨x, rfl⟩ := e.scalar_of_mem_code hmem
    rw [hcode, negateCode_constant, Emitted.emitAll_concat, Emitted.emitAll_concat]
    exact congrArg Except.ok (Emitted.changeLast_emit _ _ _ _ _)
  | negate =>
    -- Before the sign that is taken out there is an operand, which counts.
    have hinit : Code.effect init = 1 := by simpa [hcode, Operation.effect] using he
    obtain ⟨init', i, rfl⟩ := exists_concat_of_effect hinit
    rw [hcode, negateCode_negate, Emitted.emitAll_concat, Emitted.popLast_emit]
    refine congrArg Except.ok (Emitted.raise_of_le _ ?_)
    rw [Operation.effect, add_zero, Emitted.emitAll_concat]
    exact Emitted.depth_emit_le _ i
  | _ =>
    rw [hcode, negateCode_other position init origin (by simp) (by simp),
      Emitted.emitAll_concat _ (init ++ _)]

theorem Sequence.listing_concat (sequence : Bool) (fs : List Finished) (e last : Expr)
    (comma : Nat) :
    listing sequence ⟨fs ++ [⟨e, comma⟩], last⟩ =
      listing sequence ⟨fs, e⟩ ++ (if sequence then [⟨.discard, comma⟩] else []) ++ last.code := by
  simp [listing]

/-- In brackets every statement leaves its value. -/
theorem Sequence.listing_false (s : Sequence) :
    s.listing false = Expr.codeOfAll (s.finished.map (·.statement) ++ [s.last]) := by
  simp [listing, Expr.codeOfAll_eq_flatMap, List.flatMap_map]

theorem Expr.effect_codeOfAll {es : List Expr} (h : ∀ e ∈ es, Code.effect e.code = 1) :
    Code.effect (codeOfAll es) = es.length := by
  induction es with
  | nil => rfl
  | cons e es ih =>
    obtain ⟨he, hes⟩ := List.forall_mem_cons.1 h
    rw [codeOfAll, Code.effect_append, he, ih hes, List.length_cons]
    omega

end

/-! ### Levels -/

section

variable {scope : Scope} {text : List Char} {level inner : Level} {depth index : Nat} {f : Frame}
  {signed : Bool} {e : Expr}

/-- A tighter term may begin where a looser one does. -/
theorem Frame.Admits.mono (h : f.Admits scope text level depth index signed)
    (hbound : level.bound ≤ inner.bound) (hpower : level = .power → inner = .element)
    (helement : level = .element → inner = .element)
    (hoperand : inner = .power ∨ inner = .element → level = .power ∨ level = .element) :
    f.Admits scope text inner depth index signed :=
  ⟨h.depth_eq, h.admits.mono hbound hpower helement, fun hinner ↦ h.operand (hoperand hinner)⟩

/-- Behind something that waits, a tighter term begins. -/
theorem Frame.admits_waits {p : Pending} {d : Nat} (hdepth : d = (f.waits p).depth)
    (hbound : p.strength < inner.bound) (hoperand : inner ≠ .power ∧ inner ≠ .element) :
    (f.waits p).Admits scope text inner d index false := by
  refine ⟨hdepth, ⟨?_, by simp⟩, fun h ↦ ?_⟩
  · rintro q hq
    obtain rfl : p = q := Option.some.inj hq
    exact hbound
  · exact absurd h (not_or.2 hoperand)

/-- An operator that stands behind a term is of a level or looser, and closes all that waits along
the right edge of the term. -/
def Continues (text : List Char) (level : Level) (index : Nat) (e : Expr) : Prop :=
  ∀ op : Operator, text[index]? = some op.symbol →
    level.rank ≤ op.level.rank ∧ ∀ q ∈ e.edge, op.closes ≤ q.strength

/-- The right operand of an operator binds more tightly than the operator. -/
theorem Operator.strength_lt_right (op : Operator) : op.strength < op.level.right.bound := by
  cases op <;> decide

/-- It may have a sign of its own. -/
theorem Operator.right_ne (op : Operator) :
    op.level.right ≠ .power ∧ op.level.right ≠ .element := by
  cases op <;> decide

/-- What may follow the right operand of an operator may follow the whole term. -/
theorem Level.continues_right (hlevel : level = .sum ∨ level = .product ∨ level = .power) :
    ∀ op : Operator, level.right.rank < op.level.rank →
      level.rank ≤ op.level.rank ∧ op.closes ≤ level.least := by
  intro op
  rcases hlevel with rfl | rfl | rfl <;> cases op <;> decide

theorem Ends.continues {least : Nat} (h : Ends text inner index)
    (hlevel : ∀ op : Operator, inner.rank < op.level.rank →
      level.rank ≤ op.level.rank ∧ op.closes ≤ least)
    (he : ∀ q ∈ e.edge, least ≤ q.strength) : Continues text level index e := by
  intro op hop
  obtain ⟨hrank, hcloses⟩ := hlevel op (h.operator op hop)
  exact ⟨hrank, fun q hq ↦ hcloses.trans (he q hq)⟩

/-- Behind a chain of operators of a level no more of them follow. -/
theorem Continues.ends (h : Continues text level index e) (hlevel : level ≠ .statement)
    (hnone : operatorAt? text index level = none) : Ends text level index := by
  refine ⟨fun op hop ↦ lt_of_le_of_ne (h op hop).1 fun heq ↦ ?_, fun hs ↦ absurd hs hlevel⟩
  have hsame : op.level = level := by
    cases op <;> cases level <;> simp_all [Level.rank, Operator.level]
  rw [operatorAt?_eq_some.2 ⟨hop, hsame⟩] at hnone
  cases hnone

end

/-! ### What was written -/

section

variable {text : List Char} {level inner : Level} {before : Emitted} {start index index' : Nat}
  {a : Advance text index} {e : Expr}

theorem Written.mono (h : Written inner before start a e) (hleast : level.least ≤ inner.least)
    (hinner : inner ≠ .statement) : Written level before start a e :=
  ⟨h.emitted_eq, h.effect, fun q hq ↦ hleast.trans (h.least q hq), fun _ ↦ h.start_eq hinner⟩

theorem Written.since (h : Written level before start a e) (hle : index' ≤ index) :
    Written level before start (a.since hle) e :=
  ⟨h.emitted_eq, h.effect, h.least, h.start_eq⟩

/-- An operand was emitted. -/
theorem Written.operand (hcode : a.emitted = before.emitAll e.code)
    (heffect : Code.effect e.code = 1) (hedge : e.edge = []) (hstart : e.start = start) :
    Written level before start a e :=
  ⟨hcode, heffect, by simp [hedge], fun _ ↦ hstart⟩

theorem Written.negate {b : Advance text index'} {position : Nat}
    (h : Written .power before start a e)
    (hb : b.emitted = before.emitAll (negateCode position e.code)) :
    Written .signed before position b (.negate position e) := by
  refine ⟨hb, ?_, ?_, fun _ ↦ rfl⟩
  · rw [Expr.code, effect_negateCode, h.effect]
  · rw [Expr.edge, List.forall_mem_append, List.forall_mem_singleton]
    exact ⟨h.least, le_rfl⟩

theorem Written.binary {op : Operator} {b : Advance text (a.stop + 1)} {r : Expr}
    (he : Written level before start a e) (hr : Written level.right a.emitted (a.stop + 1) b r)
    (hop : op.level = level) :
    Written level before start (a.behind (b.emit ⟨.binary op, a.stop⟩))
      (.binary op a.stop e r) := by
  have hright : level.least ≤ level.right.least := by
    subst hop
    cases op <;> decide
  refine ⟨?_, ?_, ?_, he.start_eq⟩
  · show b.emitted.emit _ = before.emitAll (e.code ++ r.code ++ [_])
    rw [Emitted.emitAll_concat, Emitted.emitAll_append, ← he.emitted_eq, ← hr.emitted_eq]
  · simp [Expr.code, he.effect, hr.effect, Operation.effect]
  · rw [Expr.edge, List.forall_mem_append, List.forall_mem_singleton]
    exact ⟨fun q hq ↦ hright.trans (hr.least q hq), Operator.strength_of_level hop⟩

theorem Written.assign {b : Advance text (a.stop + 1)} {r : Reference} {v : Expr}
    (he : Written .sum before start a e) (htarget : e.target? = some r)
    (hv : Written .statement a.emitted.popLast (a.stop + 1) b v) :
    Written .statement before start (a.behind (b.emit ⟨.store r.slot, r.position⟩))
      (.assign r v) := by
  refine ⟨?_, ?_, fun q _ ↦ Nat.zero_le _, fun h ↦ absurd rfl h⟩
  · -- The target raised the greatest depth by one, which the value does anyway.
    have htaken : a.emitted.popLast = before.raise (before.depth + 1) := by
      rw [he.emitted_eq, Expr.code_of_target? htarget]
      exact before.popLast_emit _
    show b.emitted.emit _ = before.emitAll (v.code ++ [_])
    rw [hv.emitted_eq, htaken, Emitted.emitAll_raise_of_effect _ hv.effect _ rfl]
  · simp [Expr.code, hv.effect, Operation.effect]

theorem Listed.concat {sequence : Bool} {s : Sequence} {b : Advance text (a.stop + 1)}
    (hs : Listed sequence before a s)
    (he : Written .statement
      (if sequence then a.emitted.emit ⟨.discard, a.stop⟩ else a.emitted) (a.stop + 1) b e)
    (hends : Ends text .statement b.stop) :
    Listed sequence before (a.behind b) ⟨s.finished ++ [⟨s.last, a.stop⟩], e⟩ := by
  refine ⟨?_, ?_, hends⟩
  · show b.emitted = _
    rw [Sequence.listing_concat, Emitted.emitAll_append, Emitted.emitAll_append, ← hs.emitted_eq,
      he.emitted_eq]
    cases sequence <;> rfl
  · rw [List.map_append, List.forall_mem_append]
    exact ⟨hs.effect, List.forall_mem_singleton.2 he.effect⟩

end

/-! ### One function at a time -/

namespace Descent

variable {scope : Scope} {text : List Char}

section

variable {depth : Nat} {before : Emitted} {index : Nat}

/-- A term that operators of a looser level may follow. -/
theorem follows_operators {level inner : Level}
    {read : Frame × Bool → Except CompileError Sequence} {x : Except Halt (Advance text index)}
    (hlevel : level = .sum ∧ inner = .product ∨ level = .product ∧ inner = .signed ∨
      level = .power ∧ inner = .element)
    (hx : FollowsTerm scope text inner depth before index read x)
    (hchain : ∀ (a : Advance text index) (e : Expr), Written level before index a e →
      Continues text level a.stop e → FollowsTerm scope text level depth before index
        (fun s ↦ scope.readAt text (s.1.holds e) a.stop) (chain scope text level depth a)) :
    FollowsTerm scope text level depth before index read
      (x >>= fun a ↦ chain scope text level depth a) := by
  have hinner : inner ≠ .statement ∧ level.least ≤ inner.least ∧ ∀ op : Operator,
      inner.rank < op.level.rank → level.rank ≤ op.level.rank ∧ op.closes ≤ inner.least := by
    rcases hlevel with ⟨rfl, rfl⟩ | ⟨rfl, rfl⟩ | ⟨rfl, rfl⟩ <;>
      exact ⟨by decide, by decide, fun op ↦ by cases op <;> decide⟩
  refine .bind id hx ?_ (fun _ _ ↦ rfl) ?_
  · rintro ⟨f, signed⟩ hf
    rcases hlevel with ⟨rfl, rfl⟩ | ⟨rfl, rfl⟩ | ⟨rfl, rfl⟩ <;>
      exact hf.mono (by decide) (by simp) (by simp) (by simp)
  · rintro a e ⟨he, hends⟩
    exact hchain a e (he.mono hinner.2.1 hinner.1) (hends.continues hinner.2.2 he.least)

/-- A sum that is assigned to, or a statement by itself. -/
theorem follows_assignment (hindex : index ≤ text.length)
    (hsum : FollowsTerm scope text .sum depth before index
      (fun s ↦ scope.readAt text (s.1.awaits s.2) index) (term scope text .sum depth before index))
    (hvalue : ∀ a : Advance text index, text[a.stop]? = some '=' →
      FollowsTerm scope text .statement depth a.emitted.popLast (a.stop + 1)
        (fun s ↦ scope.readAt text (s.1.awaits s.2) (a.stop + 1))
        (term scope text .statement depth a.emitted.popLast (a.stop + 1))) :
    FollowsTerm scope text .statement depth before index
      (fun s ↦ scope.readAt text (s.1.awaits s.2) index)
      (term scope text .statement depth before index) := by
  rw [term]
  refine .bind id hsum ?_ (fun _ _ ↦ rfl) ?_
  · exact fun s hs ↦ hs.mono (by decide) (by simp) (by simp) (by simp)
  rintro a e ⟨he, hends⟩
  have hdrop : a.emitted.code.drop before.code.length = e.code := by
    rw [he.emitted_eq, Emitted.code_emitAll, List.drop_left]
  split
  · next hequals =>
    rw [hdrop]
    -- The reader asks the tree for a variable, the descent asks the code for a single load.
    cases htarget : e.target? with
    | some r =>
      rw [Expr.code_of_target? htarget]
      refine .bind (fun s ↦ (s.1.waits (.assign r), false)) (hvalue a hequals) ?_ ?_ ?_
      · rintro ⟨f, signed⟩ hf
        refine Frame.admits_waits ?_ Nat.one_pos ⟨by simp, by simp⟩
        rw [Frame.depth_waits, hf.depth_eq]
        rfl
      · rintro ⟨f, signed⟩ hf
        exact Scope.readAt_assign hequals he.least hf.admits.loose htarget
      · rintro b v ⟨hv, hends'⟩
        refine .advance ⟨he.assign htarget hv, hends'⟩ fun s _ ↦ ?_
        rw [Frame.holds_waits]
        rfl
    | none =>
      split
      · next hcode =>
        obtain ⟨r, hr⟩ := Expr.exists_target? hcode
        rw [htarget] at hr
        cases hr
      · refine .refused hindex fun s hs ↦ ?_
        exact (Scope.readAt_badTarget hequals he.least hs.admits.loose htarget).trans
          (by rw [he.start_eq (by simp)])
  · next hequals =>
    refine .advance ⟨he.mono (by decide) (by simp), ⟨fun op hop ↦ ?_, fun _ ↦ hequals⟩⟩
      fun _ _ ↦ rfl
    have hrank := hends.operator op hop
    cases op <;> simp [Level.rank, Operator.level] at hrank

/-- A power with a sign, or a power by itself. -/
theorem follows_sign (hindex : index ≤ text.length)
    (hpower : FollowsTerm scope text .power depth before index
      (fun s ↦ scope.readAt text (s.1.awaits s.2) index)
      (term scope text .power depth before index))
    (hoperand : text[index]? = some '-' → FollowsTerm scope text .power depth before (index + 1)
      (fun s ↦ scope.readAt text (s.1.awaits s.2) (index + 1))
      (term scope text .power depth before (index + 1))) :
    FollowsTerm scope text .signed depth before index
      (fun s ↦ scope.readAt text (s.1.awaits s.2) index)
      (term scope text .signed depth before index) := by
  have hends {place : Nat} (h : Ends text .power place) : Ends text .signed place := by
    refine ⟨fun op hop ↦ ?_, by simp⟩
    have hrank := h.operator op hop
    revert hrank
    cases op <;> decide
  rw [term]
  cases hcheck : scope.checkDepth depth index with
  | error error =>
    have hposition : error.position = index := by
      rw [Scope.checkDepth] at hcheck
      split at hcheck <;> cases hcheck
      rfl
    exact .refused (hposition ▸ hindex) fun s hs ↦ Scope.readAt_tooDeep hs hindex hcheck
  | ok _ =>
    have hlimit := Scope.checkDepth_ok hcheck
    show FollowsTerm scope text .signed depth before index _
      (if text[index]? = some '-' then _ else _)
    split
    · next hminus =>
      refine .bind (fun s ↦ (s.1.waits (.sign index), true)) (hoperand hminus) ?_ ?_ ?_
      · rintro ⟨f, signed⟩ hf
        refine ⟨?_, ⟨?_, fun _ ↦ ⟨.inl rfl, hlimit⟩⟩, fun _ ↦ ⟨hlimit, by simp⟩⟩
        · rw [Frame.depth_waits, hf.depth_eq]
          rfl
        · exact fun p _ ↦ p.strength_lt
      · rintro ⟨f, signed⟩ hf
        exact Scope.readAt_sign hf hlimit hminus (hf.admits.signed_eq_false (by simp) (by simp))
      · rintro a e ⟨he, hpower⟩
        rw [he.emitted_eq, negated_emitAll index before he.effect]
        refine .advance ⟨he.negate rfl, hends hpower⟩ fun s _ ↦ ?_
        rw [Frame.holds_waits]
        rfl
    · next hminus =>
      refine hpower.mono ?_ ?_
      · rintro ⟨f, signed⟩ hf
        exact ⟨hf.depth_eq, hf.admits.mono le_rfl (by simp) (by simp),
          fun _ ↦ ⟨hlimit, fun _ ↦ hminus⟩⟩
      · rintro a e ⟨he, hpower⟩
        exact ⟨he.mono le_rfl (by simp), hends hpower⟩

/-- An operator of any level may follow an operand. -/
theorem ends_element (place : Nat) : Ends text .element place := by
  refine ⟨fun op _ ↦ ?_, by simp⟩
  cases op <;> decide

/-- One value in brackets. -/
theorem follows_group (hindex : index ≤ text.length) (hopening : text[index]? = some '(')
    (hinner : FollowsAll scope text false (depth + 1) before
      (fun f ↦ scope.readAt text (f.awaits false) (index + 1))
      (statements scope text false (depth + 1) before (index + 1))) :
    FollowsTerm scope text .element depth before index
      (fun s ↦ scope.readAt text (s.1.awaits s.2) index)
      (term scope text .element depth before index) := by
  rw [term, if_pos hopening]
  refine .bind (fun s ↦ s.1.encloses (.group index)) hinner ?_ ?_ ?_
  · rintro ⟨f, signed⟩ hf
    exact ⟨rfl, by rw [Frame.depth_encloses, hf.depth_eq]⟩
  · rintro ⟨f, signed⟩ hf
    exact Scope.readAt_opening hf (hf.operand (.inr rfl)).1 hopening
  rintro a ⟨fs, e⟩ ⟨hs, hcomma⟩
  -- Each item leaves one value, so that the depth of the stack tells whether there is one item.
  have hcount : a.emitted.depth = before.depth + 1 ↔ fs = [] := by
    rw [hs.emitted_eq, Emitted.depth_emitAll, Sequence.listing_false,
      Expr.effect_codeOfAll hs.effect, ← List.length_eq_zero_iff]
    simp
  split
  · next hclosing =>
    split
    · next hone =>
      obtain rfl := hcount.1 hone
      have hcode : a.emitted = before.emitAll e.code := hs.emitted_eq
      have heffect : Code.effect e.code = 1 := hs.effect e (by simp)
      have hwritten : Written .element before index ((a.past hclosing).since (Nat.le_succ index))
          (.group index e) := .operand hcode heffect rfl rfl
      exact .advance ⟨hwritten, ends_element _⟩ fun s _ ↦
        Scope.readAt_closing hclosing (.group index) []
    · next hone =>
      refine .refused hindex fun s _ ↦ ?_
      rw [Scope.readAt_closing hclosing (.group index) fs]
      obtain ⟨f, fs, rfl⟩ := List.exists_cons_of_ne_nil (mt hcount.2 hone)
      cases fs <;> rfl
  · next hclosing =>
    refine .refused a.le fun s _ ↦ ?_
    rw [Frame.separatesAll_encloses]
    exact Scope.readAt_unterminated hs.ends.ne_operator (hs.ends.equals rfl) hcomma a.le hclosing
      (List.cons_ne_nil _ _)

section

variable {g : Function} {name rest : List Char}

/-- The closing bracket of a call, behind so many arguments. -/
theorem follows_closeCall {index' : Nat} (hindex : index ≤ text.length)
    {read : Frame × Bool → Except CompileError Sequence} {a : Advance text index'} {es : List Expr}
    (hclosing : text[a.stop]? = some ')') (hcode : a.emitted = before.emitAll (Expr.codeOfAll es))
    (heffect : ∀ e ∈ es, Code.effect e.code = 1)
    (hread : ∀ s : Frame × Bool, s.1.Admits scope text .element depth index s.2 →
      read s = Reading.closeBracket (.call g index) es >>= fun e ↦
        scope.readAt text (s.1.holds e) (a.stop + 1)) :
    FollowsTerm scope text .element depth before index read
      (closeCall g before.depth index a) := by
  have hcount : a.emitted.depth - before.depth = es.length := by
    rw [hcode, Emitted.depth_emitAll, Expr.effect_codeOfAll heffect]
    omega
  rw [closeCall, dif_pos hclosing, hcount]
  by_cases harity : es.length = g.arity
  · have hwritten : Written .element before index
        ((a.past hclosing).emit ⟨.call g.code g.arity, index⟩) (.call g index es) := by
      refine .operand ?_ ?_ rfl rfl
      · show a.emitted.emit _ = before.emitAll (Expr.codeOfAll es ++ [_])
        rw [hcode, Emitted.emitAll_concat]
      · simp [Expr.code, Expr.effect_codeOfAll heffect, Operation.effect, harity]
    simp only [harity, if_true]
    refine .advance ⟨hwritten, ends_element _⟩ fun s hs ↦ ?_
    rw [hread s hs, Reading.closeBracket, if_pos harity]
    rfl
  · simp only [Int.ofNat_inj, harity, if_false, Int.toNat_natCast]
    refine .refused hindex fun s hs ↦ ?_
    rw [hread s hs, Reading.closeBracket, if_neg harity]
    rfl

/-- The arguments of a function behind its name. -/
theorem follows_call (hnumeral : takeNumeral? (text.drop index) = none)
    (hname : takeName? (text.drop index) = some (name, rest))
    (hmeaning : scope.meaning (String.ofList name) = .function g)
    (harguments : text[index + name.length]? = some '(' →
      FollowsAll scope text false (depth + 1) before
        (fun f ↦ scope.readAt text (f.awaits false) (index + name.length + 1))
        (statements scope text false (depth + 1) before (index + name.length + 1))) :
    FollowsTerm scope text .element depth before index
      (fun s ↦ scope.readAt text (s.1.awaits s.2) index)
      (call scope text g depth before index (index + name.length)) := by
  have hplace : index + name.length ≤ text.length :=
    (Advance.lexeme (takeName?_append hname) before).le
  have hindex : index ≤ text.length := Nat.le_of_add_right_le hplace
  rw [call]
  split
  · next hopening =>
    split
    · next hclosing =>
      have hnone : before = before.emitAll (Expr.codeOfAll []) := rfl
      refine follows_closeCall hindex hclosing hnone (by simp) ?_
      rintro ⟨f, signed⟩ hf
      exact Scope.readAt_callNone hf (hf.operand (.inr rfl)).1 hnumeral hname hmeaning hopening
        hclosing
    · next hclosing =>
      refine .bind (fun s ↦ s.1.encloses (.call g index)) (harguments hopening) ?_ ?_ ?_
      · rintro ⟨f, signed⟩ hf
        exact ⟨rfl, by rw [Frame.depth_encloses, hf.depth_eq]⟩
      · rintro ⟨f, signed⟩ hf
        exact Scope.readAt_call hf (hf.operand (.inr rfl)).1 hnumeral hname hmeaning hopening
          hclosing
      · rintro a ⟨fs, e⟩ ⟨hs, hcomma⟩
        by_cases hend : text[a.stop]? = some ')'
        · refine follows_closeCall hindex hend ?_ hs.effect fun s _ ↦
            Scope.readAt_closing hend (.call g index) fs
          rw [← Sequence.listing_false]
          exact hs.emitted_eq
        · rw [closeCall]
          split
          · next hclosing => exact absurd hclosing hend
          · refine .refused a.le fun s _ ↦ ?_
            rw [Frame.separatesAll_encloses]
            exact Scope.readAt_unterminated hs.ends.ne_operator (hs.ends.equals rfl) hcomma a.le
              hend (List.cons_ne_nil _ _)
  · next hopening =>
    refine .refused hplace ?_
    rintro ⟨f, signed⟩ hf
    exact Scope.readAt_noBracket hf (hf.operand (.inr rfl)).1 hnumeral hname hmeaning hopening

/-- A number, a variable, a call or a group. -/
theorem follows_element (hindex : index ≤ text.length)
    (hinner : text[index]? = some '(' → FollowsAll scope text false (depth + 1) before
      (fun f ↦ scope.readAt text (f.awaits false) (index + 1))
      (statements scope text false (depth + 1) before (index + 1)))
    (harguments : ∀ name rest, takeName? (text.drop index) = some (name, rest) →
      text[index + name.length]? = some '(' → FollowsAll scope text false (depth + 1) before
        (fun f ↦ scope.readAt text (f.awaits false) (index + name.length + 1))
        (statements scope text false (depth + 1) before (index + name.length + 1))) :
    FollowsTerm scope text .element depth before index
      (fun s ↦ scope.readAt text (s.1.awaits s.2) index)
      (term scope text .element depth before index) := by
  by_cases hopening : text[index]? = some '('
  · exact follows_group hindex hopening (hinner hopening)
  rw [term, if_neg hopening]
  split
  · next numeral rest hnumeral =>
    have hwritten : Written .element before index (.lexeme (takeNumeral?_append hnumeral)
        (before.emit ⟨.constant (Expr.numberValue numeral), index⟩)) (.number numeral index) :=
      .operand rfl rfl rfl rfl
    exact .advance ⟨hwritten, ends_element _⟩ fun s hs ↦
      Scope.readAt_numeral hs (hs.operand (.inr rfl)).1 hnumeral
  · next hnumeral =>
    split
    · next name rest hname =>
      cases hmeaning : scope.meaning (String.ofList name) with
      | function g =>
        refine .bind id (follows_call hnumeral hname hmeaning (harguments name rest hname))
          (fun _ hs ↦ hs) (fun _ _ ↦ rfl) ?_
        rintro a e ⟨he, hends⟩
        exact .advance ⟨he.since _, hends⟩ fun _ _ ↦ rfl
      | «variable» slot =>
        have hwritten : Written .element before index (.lexeme (takeName?_append hname)
            (before.emit ⟨.load slot, index⟩)) (.name ⟨String.ofList name, slot, index⟩) :=
          .operand rfl rfl rfl rfl
        exact .advance ⟨hwritten, ends_element _⟩ fun s hs ↦
          Scope.readAt_variable hs (hs.operand (.inr rfl)).1 hnumeral hname hmeaning
      | unknown =>
        exact .refused hindex fun s hs ↦
          Scope.readAt_unknown hs (hs.operand (.inr rfl)).1 hnumeral hname hmeaning
    · next hname =>
      split
      · next c hc =>
        refine .refused hindex fun s hs ↦ ?_
        obtain ⟨hlimit, hsign⟩ := hs.operand (.inr rfl)
        refine Scope.readAt_unexpected hs hlimit hc ?_ hsign hnumeral hname
        rintro rfl
        exact hopening hc
      · next hend =>
        exact .refused hindex fun s hs ↦
          Scope.readAt_end hs (hs.operand (.inr rfl)).1 hindex hend

end

end

/-! ### All functions together

The induction is on what is left of the text and then on the level, as the functions recurse. -/

mutual

/-- Statements are read as the reader reads them. -/
theorem follows_statements (sequence : Bool) (depth : Nat) (before : Emitted) (index : Nat)
    (hindex : index ≤ text.length) :
    FollowsAll scope text sequence depth before (fun f ↦ scope.readAt text (f.awaits false) index)
      (statements scope text sequence depth before index) := by
  rw [statements]
  refine .bind (fun f ↦ (f, false)) (follows_term .statement depth before index hindex) ?_
    (fun _ _ ↦ rfl) ?_
  · rintro f ⟨hpending, hdepth⟩
    exact ⟨hdepth, by rw [hpending]; exact Scope.admits_nil _ _, by simp⟩
  · rintro a e ⟨hwritten, hends⟩
    refine follows_further sequence depth before a ⟨[], e⟩ ⟨?_, ?_, hends⟩
    · exact hwritten.emitted_eq
    · simpa using hwritten.effect
termination_by (text.length - index, 7)
decreasing_by
  · exact .right _ (by decide)
  · exact .left _ _ a.left_lt

/-- So are the statements that follow one, behind a comma each. -/
theorem follows_further (sequence : Bool) (depth : Nat) (before : Emitted) {index : Nat}
    (a : Advance text index) (s : Sequence) (hs : Listed sequence before a s) :
    FollowsAll scope text sequence depth before
      (fun f ↦ scope.readAt text ((f.separatesAll s.finished).holds s.last) a.stop)
      (further scope text sequence depth a) := by
  rw [further]
  split
  · next hcomma =>
    refine .bind (fun f ↦ ((f.separatesAll s.finished).separates ⟨s.last, a.stop⟩, false))
      (follows_term .statement depth _ (a.stop + 1) (succ_le_of_getElem? hcomma)) ?_ ?_ ?_
    · rintro f ⟨hpending, hdepth⟩
      obtain ⟨hpending, hdepth'⟩ := Frame.depth_separatesAll s.finished hpending
      obtain ⟨hpending, hdepth''⟩ := Frame.depth_separates ⟨s.last, a.stop⟩ hpending
      refine ⟨by rw [hdepth'', hdepth', hdepth], ?_, by simp⟩
      rw [hpending]
      exact Scope.admits_nil _ _
    · rintro f ⟨hpending, hdepth⟩
      exact Scope.readAt_comma hcomma (Frame.depth_separatesAll s.finished hpending).1
    · rintro b e ⟨hwritten, hends⟩
      have hrest := follows_further sequence depth before (a.behind b) _ (hs.concat hwritten hends)
      simp only [Frame.separatesAll_concat] at hrest
      exact hrest
  · next hcomma => exact .advance ⟨hs, hcomma⟩ fun _ _ ↦ rfl
termination_by (text.length - a.stop, 0)
decreasing_by
  · exact .left _ _ (left_lt_of_getElem? ‹_›)
  · exact .left _ _ (b.left_lt.trans (left_lt_of_getElem? ‹_›))

/-- **A term of any level is read as the reader reads it**, whatever the reader held before. -/
theorem follows_term (level : Level) (depth : Nat) (before : Emitted) (index : Nat)
    (hindex : index ≤ text.length) :
    FollowsTerm scope text level depth before index
      (fun s ↦ scope.readAt text (s.1.awaits s.2) index)
      (term scope text level depth before index) := by
  cases level with
  | statement =>
    exact follows_assignment hindex (follows_term .sum depth before index hindex) fun a h ↦
      follows_term .statement depth a.emitted.popLast (a.stop + 1) (succ_le_of_getElem? h)
  | sum =>
    rw [term]
    exact follows_operators (by simp) (follows_term .product depth before index hindex)
      fun a e he hnext ↦ follows_chain .sum (by simp) depth before index a e he hnext
  | product =>
    rw [term]
    exact follows_operators (by simp) (follows_term .signed depth before index hindex)
      fun a e he hnext ↦ follows_chain .product (by simp) depth before index a e he hnext
  | signed =>
    exact follows_sign hindex (follows_term .power depth before index hindex) fun h ↦
      follows_term .power depth before (index + 1) (succ_le_of_getElem? h)
  | power =>
    rw [term]
    exact follows_operators (by simp) (follows_term .element depth before index hindex)
      fun a e he hnext ↦ follows_chain .power (by simp) depth before index a e he hnext
  | element =>
    exact follows_element hindex
      (fun h ↦ follows_statements false (depth + 1) before (index + 1) (succ_le_of_getElem? h))
      fun name rest hname h ↦ follows_statements false (depth + 1) before (index + name.length + 1)
        (succ_le_of_getElem? h)
termination_by (text.length - index, level.rank)
decreasing_by
  all_goals first
    -- A tighter level at the same place, or any level further on.
    | exact .right _ (by decide)
    | exact .left _ _ (Advance.left_lt _)
    | exact .left _ _ (left_lt_of_getElem? ‹_›)
    | exact .left _ _ ((left_lt_of_getElem? h).trans a.left_lt)
    | exact .left _ _ ((left_lt_of_getElem? h).trans_le
        (Nat.sub_le_sub_left (Nat.le_add_right ..) _))

/-- So are the operators that follow a term, each of which takes all before it as its left
operand. -/
theorem follows_chain (level : Level) (hlevel : level = .sum ∨ level = .product ∨ level = .power)
    (depth : Nat) (before : Emitted) (start : Nat) {index : Nat} (a : Advance text index) (e : Expr)
    (he : Written level before start a e) (hnext : Continues text level a.stop e) :
    FollowsTerm scope text level depth before start
      (fun s ↦ scope.readAt text (s.1.holds e) a.stop) (chain scope text level depth a) := by
  rw [chain]
  split
  · next op hop =>
    obtain ⟨hc, hsame⟩ := operatorAt?_eq_some.1 hop
    refine .bind (fun s ↦ (s.1.waits (.binary op a.stop e), false))
      (follows_term level.right _ a.emitted (a.stop + 1) (succ_le_of_getElem? hc)) ?_ ?_ ?_
    · rintro ⟨f, signed⟩ hf
      refine Frame.admits_waits ?_ ?_ ?_
      · rw [Frame.depth_waits, hf.depth_eq]
        cases op <;> rfl
      · exact hsame ▸ op.strength_lt_right
      · exact hsame ▸ op.right_ne
    · rintro ⟨f, signed⟩ hf
      refine Scope.readAt_binary hc (hnext op hc).2 fun q hq ↦ ?_
      exact (hf.admits.loose q hq).trans_eq (Operator.closes_of_level hsame).symm
    · rintro b r ⟨hr, hends⟩
      -- The term so far becomes the left operand of the next operator of the level.
      have hwritten := he.binary hr hsame
      have hcontinues := hends.continues (level.continues_right hlevel) hwritten.least
      simp only [Frame.holds_waits]
      exact follows_chain level hlevel depth before start _ _ hwritten hcontinues
  · next hnone =>
    have hne : level ≠ .statement := by
      rintro rfl
      simp at hlevel
    exact .advance ⟨he, hnext.ends hne hnone⟩ fun _ _ ↦ rfl
termination_by (text.length - a.stop, 0)
decreasing_by
  · exact .left _ _ (left_lt_of_getElem? hc)
  · exact .left _ _ (b.left_lt.trans (left_lt_of_getElem? hc))

end

end Descent

end Reckoner
