import Reckoner.Proofs.Expr.Origin
import Reckoner.Proofs.Grammar.Commas
import Mathlib.Tactic.Common

/-!
# Expressions further on in a text

The reader does nothing with positions but to note them in the tree and in errors.  So if a text
stands behind another one, it is read as it is read by itself, with so many characters added to all
positions.  `moved` adds them, and each function that the reader is made of commutes with it, down
to the code of the tree.

`Reading.behind` is the state of the reader behind statements that are complete and a comma.  It
differs from the state in which a text is read by itself in positions and in these statements, which
nothing looks at (`Scope.readFrom_behind`).
-/

set_option autoImplicit false

namespace Reckoner

/-! ## Trees -/

/-- A reference so many characters further on. -/
def Reference.moved (k : Nat) (r : Reference) : Reference := { r with position := r.position + k }

namespace Expr

mutual

/-- An expression so many characters further on. -/
def moved (k : Nat) : Expr → Expr
  | number numeral position => number numeral (position + k)
  | name reference => name (reference.moved k)
  | call function position arguments => call function (position + k) (movedAll k arguments)
  | group position inner => group (position + k) (inner.moved k)
  | negate position operand => negate (position + k) (operand.moved k)
  | binary op position left right => binary op (position + k) (left.moved k) (right.moved k)
  | assign target value => assign (target.moved k) (value.moved k)

/-- Several expressions so many characters further on. -/
def movedAll (k : Nat) : List Expr → List Expr
  | [] => []
  | e :: es => e.moved k :: movedAll k es

end

theorem movedAll_eq_map (k : Nat) (es : List Expr) : movedAll k es = es.map (moved k) := by
  induction es with
  | nil => rfl
  | cons e es ih => rw [movedAll, ih, List.map_cons]

theorem start_moved (k : Nat) (e : Expr) : (e.moved k).start = e.start + k := by
  fun_induction start e with
  | case6 _ _ left right ih => exact ih
  | _ => rfl

mutual

theorem target?_moved (k : Nat) : ∀ e : Expr,
    (e.moved k).target? = e.target?.map (Reference.moved k)
  | number .. | name _ | call .. | binary .. | assign .. => rfl
  | group _ inner => target?_moved k inner
  | negate _ operand => negatedTarget?_moved k operand

theorem negatedTarget?_moved (k : Nat) : ∀ e : Expr,
    (e.moved k).negatedTarget? = e.negatedTarget?.map (Reference.moved k)
  | number .. | name _ | call .. | binary .. | assign .. => rfl
  | group _ inner => negatedTarget?_moved k inner
  | negate _ operand => target?_moved k operand

end

end Expr

/-! ## What waits for an operand -/

namespace Pending

/-- Something that waits for an operand, so many characters further on. -/
def moved (k : Nat) : Pending → Pending
  | assign target => assign (target.moved k)
  | binary op position left => binary op (position + k) (left.moved k)
  | sign position => sign (position + k)

@[simp] theorem strength_moved (k : Nat) (p : Pending) : (p.moved k).strength = p.strength := by
  cases p <;> rfl

@[simp] theorem deepens_moved (k : Nat) (p : Pending) : (p.moved k).deepens = p.deepens := by
  cases p with
  | binary op => cases op <;> rfl
  | _ => rfl

@[simp] theorem complete_moved (k : Nat) (p : Pending) (e : Expr) :
    (p.moved k).complete (e.moved k) = (p.complete e).moved k := by
  cases p <;> rfl

theorem close_moved (k least : Nat) (ps : List Pending) (e : Expr) :
    close least (ps.map (moved k)) (e.moved k) =
      ((close least ps e).1.moved k, (close least ps e).2.map (moved k)) := by
  induction ps generalizing e with
  | nil => rfl
  | cons p ps ih =>
    rw [List.map_cons, close, close, strength_moved]
    split
    · rw [complete_moved, ih]
    · rfl

theorem closeAll_moved (k : Nat) (ps : List Pending) (e : Expr) :
    closeAll (ps.map (moved k)) (e.moved k) = (closeAll ps e).moved k := by
  induction ps generalizing e with
  | nil => rfl
  | cons p ps ih =>
    have hstep := ih (p.complete e)
    rwa [← complete_moved] at hstep

@[simp] theorem depth_moved (k : Nat) (ps : List Pending) :
    depth (ps.map (moved k)) = depth ps := by
  rw [depth, List.countP_map, depth]
  exact congrArg (List.countP · ps) (funext fun p ↦ deepens_moved k p)

end Pending

/-! ## The state of the reader -/

/-- An open bracket so many characters further on. -/
def Opener.moved (k : Nat) : Opener → Opener
  | group position => group (position + k)
  | call function position => call function (position + k)

namespace Enclosure

/-- An open bracket with all that it holds, so many characters further on. -/
def moved (k : Nat) (c : Enclosure) : Enclosure :=
  ⟨c.opener.moved k, c.items.map (Expr.moved k), c.pending.map (Pending.moved k)⟩

@[simp] theorem depth_moved (k : Nat) (cs : List Enclosure) :
    depth (cs.map (moved k)) = depth cs := by
  induction cs with
  | nil => rfl
  | cons c cs ih => rw [List.map_cons, depth, ih, depth, moved, Pending.depth_moved]

end Enclosure

/-- What the reader expects, so many characters further on. -/
@[simp] def Awaited.moved (k : Nat) : Awaited → Awaited
  | operand signed => operand signed
  | operator e => operator (e.moved k)

/-- A complete statement so many characters further on. -/
def Finished.moved (k : Nat) (f : Finished) : Finished := ⟨f.statement.moved k, f.comma + k⟩

/-- An error so many characters further on. -/
def CompileError.moved (k : Nat) (e : CompileError) : CompileError := ⟨e.cause, e.position + k⟩

/-- A sequence so many characters further on, behind other statements. -/
def Sequence.behind (earlier : List Finished) (k : Nat) (s : Sequence) : Sequence :=
  ⟨earlier ++ s.finished.map (Finished.moved k), s.last.moved k⟩

/-- What reading comes to so many characters further on, behind other statements. -/
def Sequence.resultBehind (earlier : List Finished) (k : Nat)
    (result : Except CompileError Sequence) : Except CompileError Sequence :=
  (result.map (Sequence.behind earlier k)).mapError (CompileError.moved k)

@[simp] theorem Sequence.resultBehind_ok (earlier : List Finished) (k : Nat) (s : Sequence) :
    resultBehind earlier k (.ok s) = .ok (s.behind earlier k) := rfl

@[simp] theorem Sequence.resultBehind_error (earlier : List Finished) (k : Nat)
    (error : CompileError) : resultBehind earlier k (.error error) = .error (error.moved k) := rfl

namespace Reading

variable {earlier : List Finished} {k position stop : Nat} {s : Reading} {e : Expr} {token : Token}
  {signed : Bool}

/-- A state of the reader so many characters further on, behind other statements. -/
def behind (earlier : List Finished) (k : Nat) (s : Reading) : Reading :=
  ⟨earlier ++ s.finished.map (Finished.moved k), s.enclosures.map (Enclosure.moved k),
    s.pending.map (Pending.moved k), s.awaited.moved k⟩

/-- What a step comes to so many characters further on. -/
def stepBehind (earlier : List Finished) (k : Nat) (result : Except CompileError Reading) :
    Except CompileError Reading :=
  (result.map (behind earlier k)).mapError (CompileError.moved k)

@[simp] theorem stepBehind_ok : stepBehind earlier k (.ok s) = .ok (s.behind earlier k) := rfl

@[simp] theorem stepBehind_error {error : CompileError} :
    stepBehind earlier k (.error error) = .error (error.moved k) := rfl

@[simp] theorem awaited_behind : (s.behind earlier k).awaited = s.awaited.moved k := rfl

@[simp] theorem afterOperand_behind :
    (s.behind earlier k).afterOperand (e.moved k) = (s.afterOperand e).behind earlier k := rfl

@[simp] theorem afterOperand_name_behind {text : String} {slot : Nat} :
    (s.behind earlier k).afterOperand (.name ⟨text, slot, position + k⟩) =
      (s.afterOperand (.name ⟨text, slot, position⟩)).behind earlier k := rfl

@[simp] theorem enclose_call_behind {f : Function} :
    (s.behind earlier k).enclose (.call f (position + k)) =
      (s.enclose (.call f position)).behind earlier k := rfl

theorem operatorStep_behind {op : Operator} :
    (s.behind earlier k).operatorStep (e.moved k) op (position + k) =
      (s.operatorStep e op position).behind earlier k := by
  simp only [operatorStep, behind, Pending.close_moved]
  rfl

theorem equalsStep_behind :
    (s.behind earlier k).equalsStep (e.moved k) = stepBehind earlier k (s.equalsStep e) := by
  simp only [equalsStep, behind, Pending.close_moved, Expr.target?_moved, Expr.start_moved]
  cases (Pending.close 1 s.pending e).1.target? <;> rfl

theorem commaStep_behind :
    (s.behind earlier k).commaStep (e.moved k) (position + k) =
      (s.commaStep e position).behind earlier k := by
  obtain ⟨finished, enclosures, pending, awaited⟩ := s
  cases enclosures with
  | nil =>
    simp [commaStep, behind, Pending.closeAll_moved, Finished.moved, Awaited.moved]
  | cons c cs =>
    simp [commaStep, behind, Pending.closeAll_moved, Enclosure.moved, Awaited.moved]

theorem closeBracket_moved (opener : Opener) (items : List Expr) :
    closeBracket (opener.moved k) (items.map (Expr.moved k)) =
      ((closeBracket opener items).map (Expr.moved k)).mapError (CompileError.moved k) := by
  cases opener with
  | group position => rcases items with _ | ⟨item, _ | ⟨other, items⟩⟩ <;> rfl
  | call f position =>
    simp only [Opener.moved, closeBracket, List.length_map]
    split
    · simp [Except.map, Except.mapError, Expr.moved, Expr.movedAll_eq_map]
    · rfl

theorem closingStep_behind :
    (s.behind earlier k).closingStep (e.moved k) (position + k) =
      stepBehind earlier k (s.closingStep e position) := by
  obtain ⟨finished, enclosures, pending, awaited⟩ := s
  cases enclosures with
  | nil => rfl
  | cons c cs =>
    have hitems : c.items.map (Expr.moved k) ++ [(Pending.closeAll pending e).moved k] =
        (c.items ++ [Pending.closeAll pending e]).map (Expr.moved k) := by simp
    simp only [closingStep, behind, List.map_cons, Enclosure.moved, Pending.closeAll_moved, hitems,
      closeBracket_moved]
    cases closeBracket c.opener (c.items ++ [Pending.closeAll pending e]) <;> rfl

@[simp] theorem operatorTokenStep_behind :
    (s.behind earlier k).operatorTokenStep (e.moved k) token (position + k) =
      stepBehind earlier k (s.operatorTokenStep e token position) := by
  have hempty : (s.behind earlier k).enclosures.isEmpty = s.enclosures.isEmpty := by simp [behind]
  cases token with
  | operator op => exact congrArg Except.ok operatorStep_behind
  | equals => exact equalsStep_behind
  | comma => exact congrArg Except.ok commaStep_behind
  | closing => exact closingStep_behind
  | _ =>
    simp only [operatorTokenStep, hempty]
    cases s.enclosures.isEmpty <;> rfl

@[simp] theorem operandTokenStep_behind :
    (s.behind earlier k).operandTokenStep signed token (position + k) =
      stepBehind earlier k (s.operandTokenStep signed token position) := by
  cases token with
  | operator op =>
    cases op with
    | sub => cases signed <;> rfl
    | _ => rfl
  | _ => rfl

@[simp] theorem checkDepth_behind (limit : Int) :
    (s.behind earlier k).checkDepth limit signed (position + k) =
      (s.checkDepth limit signed position).mapError (CompileError.moved k) := by
  have hdepth : (s.behind earlier k).depth = s.depth := by simp [depth, behind]
  simp only [checkDepth, hdepth]
  split <;> rfl

@[simp] theorem finish_behind :
    (s.behind earlier k).finish (e.moved k) (stop + k) =
      Sequence.resultBehind earlier k (s.finish e stop) := by
  obtain ⟨finished, enclosures, pending, awaited⟩ := s
  cases enclosures with
  | nil =>
    simp only [finish, behind, List.map_nil, Pending.closeAll_moved]
    rfl
  | cons c cs => rfl

end Reading

namespace Scope

variable {scope : Scope} {stop : Nat} {s : Reading} {ts : List Placed}

/-- **The reader does nothing with positions but to note them**, and does not look at the statements
that are complete. -/
theorem readFrom_behind (scope : Scope) (stop : Nat) (s : Reading) (ts : List Placed)
    (earlier : List Finished) (k : Nat) :
    scope.readFrom (stop + k) (s.behind earlier k) (ts.map (Placed.moved k)) =
      Sequence.resultBehind earlier k (scope.readFrom stop s ts) := by
  fun_induction readFrom scope stop s ts with
  | case1 s signed hawaited hdepth =>
    simp [readFrom, hawaited, hdepth, Except.mapError, CompileError.moved]
  | case2 s signed hawaited error hdepth =>
    simp [readFrom, hawaited, hdepth, Except.mapError]
  | case3 s e hawaited => simp [readFrom, hawaited]
  | case4 s token position rest signed hawaited error hdepth =>
    simp [readFrom, hawaited, hdepth, Except.mapError]
  | case5 s position signed hawaited text hdepth f _ _ rest hmeaning operand hclosed ih =>
    have hcall := Reading.closeBracket_moved (k := k) (.call f position) []
    rw [hclosed, List.map_nil, Opener.moved] at hcall
    simpa [readFrom, hawaited, hdepth, Except.map, Except.mapError, hmeaning, hcall] using ih
  | case6 s position signed hawaited text hdepth f _ _ rest hmeaning error hclosed =>
    have hcall := Reading.closeBracket_moved (k := k) (.call f position) []
    rw [hclosed, List.map_nil, Opener.moved] at hcall
    simp [readFrom, hawaited, hdepth, Except.map, Except.mapError, hmeaning, hcall]
  | case7 s position signed hawaited text hdepth f opening rest hclosing hmeaning ih =>
    have hmoved := Placed.token_map_moved_ne (k := k) hclosing
    simpa [readFrom, hawaited, hdepth, Except.mapError, hmeaning, hmoved] using ih
  | case8 s position rest signed hawaited text hdepth f hmeaning _ hopening =>
    have hmoved := Placed.token_map_moved_ne (k := k) hopening
    simp [readFrom, hawaited, hdepth, Except.mapError, hmeaning, hmoved, CompileError.moved,
      Nat.add_right_comm]
  | case9 s position signed hawaited text hdepth slot rest hmeaning ih =>
    simpa [readFrom, hawaited, hdepth, Except.mapError, hmeaning] using ih
  | case10 s position rest signed hawaited text hdepth hmeaning =>
    simp [readFrom, hawaited, hdepth, Except.mapError, hmeaning, CompileError.moved]
  | case11 s position rest signed hawaited token hname hdepth s' hstep ih =>
    simpa [readFrom, hawaited, hdepth, Except.mapError, hstep] using ih
  | case12 s position rest signed hawaited token hname hdepth error hstep =>
    simp [readFrom, hawaited, hdepth, Except.mapError, hstep]
  | case13 s token position rest e hawaited s' hstep ih =>
    simpa [readFrom, hawaited, hstep] using ih
  | case14 s token position rest e hawaited error hstep =>
    simp [readFrom, hawaited, hstep]

/-- **Behind tokens that are read, a comma sets the reader back to its start**, but for the
statements that are complete. -/
theorem readFrom_append_comma {sequence : Sequence} (h : scope.readFrom stop s ts = .ok sequence)
    (stop' comma : Nat) (us : List Placed) :
    scope.readFrom stop' s (ts ++ ⟨.comma, comma⟩ :: us) =
      scope.readFrom stop'
        ⟨sequence.finished ++ [⟨sequence.last, comma⟩], [], [], .operand false⟩ us := by
  fun_induction readFrom scope stop s ts with
  | case3 s e hawaited =>
    obtain ⟨finished, enclosures, pending, awaited⟩ := s
    obtain rfl : awaited = .operator e := hawaited
    unfold Reading.finish at h
    split at h
    · next hnone =>
      obtain rfl : enclosures = [] := hnone
      cases h
      rfl
    · cases h
  | case5 s position signed hawaited text hdepth f _ _ rest hmeaning operand hclosed ih =>
    simpa [readFrom, hawaited, hdepth, hmeaning, hclosed] using ih h
  | case7 s position signed hawaited text hdepth f opening rest hclosing hmeaning ih =>
    have hbehind := Placed.append_comma_ne (by simp) hclosing comma us
    simpa [readFrom, hawaited, hdepth, hmeaning, hbehind] using ih h
  | case9 s position signed hawaited text hdepth slot rest hmeaning ih =>
    simpa [readFrom, hawaited, hdepth, hmeaning] using ih h
  | case11 s position rest signed hawaited token hname hdepth s' hstep ih =>
    simpa [readFrom, hawaited, hdepth, hstep] using ih h
  | case13 s token position rest e hawaited s' hstep ih =>
    simpa [readFrom, hawaited, hstep] using ih h
  | _ => cases h

/-- Two texts that are read give their statements one after the other. -/
theorem read_append_comma {text rest : String} {s t : Sequence} (hs : scope.read text = .ok s)
    (ht : scope.read rest = .ok t) :
    scope.read (text ++ "," ++ rest) =
      .ok (t.behind (s.finished ++ [⟨s.last, text.length⟩]) (text.length + 1)) := by
  have hbehind := scope.readFrom_behind rest.length .initial (Placed.scan 0 rest.toList)
    (s.finished ++ [⟨s.last, text.length⟩]) (text.length + 1)
  rw [read] at hs ht
  rw [ht, Sequence.resultBehind_ok] at hbehind
  rw [read, Placed.scan_toList_append_comma, Placed.length_append_comma,
    readFrom_append_comma hs, ← hbehind]
  simp [Reading.behind, Reading.initial]

end Scope

end Reckoner
