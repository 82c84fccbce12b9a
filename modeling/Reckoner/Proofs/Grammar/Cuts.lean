import Reckoner.Problem.Check
import Reckoner.Proofs.Expr.Descent

/-!
# Checking a text in pieces

The structural check can also be made in pieces.  A text is cut at its commas, each statement at its
first equals sign, and the piece before that and the value behind it are checked one after the other,
as if they were texts of their own.  Where to cut is told by counting brackets, before anything is
known about them: the count goes below nothing where more are closed than were opened.  A piece is
scanned character by character, with counters instead of a list of open brackets.

* `Cuts.places` are the places of a mark outside all brackets.
* `Cuts.scanFrom` scans a piece.  What it does at a character is a `Move`: another state, and a place
  further on.
* `Cuts.assignment` checks a statement, and `Cuts.check` a text.

A piece does not know where it stands in the text, so each function is given the position at which
its piece starts.
-/

set_option autoImplicit false

namespace Reckoner

open Decimal

namespace Cuts

/-! ## Cutting -/

/-- The places of a mark outside all brackets, in a text that starts at a place. -/
def places (mark : Char) : Int → Nat → List Char → List Nat
  | _, _, [] => []
  | depth, index, c :: cs =>
    if c = '(' then places mark (depth + 1) (index + 1) cs
    else if c = ')' then places mark (depth - 1) (index + 1) cs
    else if c = mark ∧ depth = 0 then index :: places mark depth (index + 1) cs
    else places mark depth (index + 1) cs

/-- A place of a mark is a place of the text. -/
theorem lt_of_mem_places {mark : Char} {depth : Int} {index place : Nat} {cs : List Char}
    (h : place ∈ places mark depth index cs) : place < index + cs.length := by
  induction cs generalizing depth index with
  | nil => cases h
  | cons c cs ih =>
    have hrest : ∀ depth, place ∈ places mark depth (index + 1) cs →
        place < index + (c :: cs).length := fun depth hmem ↦ by
      have := ih hmem
      rw [List.length_cons]
      omega
    unfold places at h
    split at h
    · exact hrest _ h
    · split at h
      · exact hrest _ h
      · split at h
        · rcases List.mem_cons.1 h with rfl | h
          · exact Nat.lt_add_of_pos_right (Nat.succ_pos _)
          · exact hrest _ h
        · exact hrest _ h

/-- The number of open brackets behind some characters. -/
def count (depth : Int) : List Char → Int
  | [] => depth
  | c :: cs =>
    count (if c = '(' then depth + 1 else if c = ')' then depth - 1 else depth) cs

/-- A mark does not stand outside all brackets. -/
def Uncut (mark : Char) (depth : Int) (cs : List Char) : Prop :=
  ∀ before behind, cs = before ++ mark :: behind → count depth before ≠ 0

section

variable {mark c : Char} {depth : Int} {index place : Nat} {cs ds : List Char} {places' : List Nat}

theorem count_append (depth : Int) (cs ds : List Char) :
    count depth (cs ++ ds) = count (count depth cs) ds := by
  induction cs generalizing depth with
  | nil => rfl
  | cons c cs ih => exact ih _

theorem Uncut.left (h : Uncut mark depth (cs ++ ds)) : Uncut mark depth cs :=
  fun before behind heq ↦ h before (behind ++ ds) (by rw [heq]; simp)

theorem Uncut.right (h : Uncut mark depth (cs ++ ds)) : Uncut mark (count depth cs) ds := by
  intro before behind heq
  rw [← count_append]
  exact h (cs ++ before) behind (by rw [heq, List.append_assoc])

/-- A mark that is met stands inside a bracket. -/
theorem Uncut.ne_zero (h : Uncut mark depth (mark :: cs)) : depth ≠ 0 := h [] cs rfl

theorem uncut_nil : Uncut mark depth [] := fun before behind heq ↦ by
  cases before <;> cases heq

theorem uncut_cons (hc : c = mark → depth ≠ 0) (hcs : Uncut mark (count depth [c]) cs) :
    Uncut mark depth (c :: cs) := by
  intro before behind heq
  cases before with
  | nil => exact hc (List.cons.inj heq).1
  | cons d before =>
    obtain ⟨rfl, rfl⟩ := List.cons.inj heq
    exact hcs before behind rfl

/-- At a mark that is no bracket a text is cut or not, and anything else is gone over. -/
theorem places_cons (hopening : mark ≠ '(') (hclosing : mark ≠ ')') :
    places mark depth index (c :: cs) =
      if c = mark ∧ depth = 0 then index :: places mark depth (index + 1) cs
      else places mark (count depth [c]) (index + 1) cs := by
  rw [places, count, count]
  split
  · next h => rw [if_neg (fun hmark ↦ hopening (hmark.1.symm.trans h))]
  · split
    · next h => rw [if_neg (fun hmark ↦ hclosing (hmark.1.symm.trans h))]
    · rfl

/-- Where a text is not cut, the mark stands in brackets only. -/
theorem uncut_of_places (hopening : mark ≠ '(') (hclosing : mark ≠ ')')
    (h : places mark depth index cs = []) : Uncut mark depth cs := by
  induction cs generalizing depth index with
  | nil => exact uncut_nil
  | cons c cs ih =>
    rw [places_cons hopening hclosing] at h
    split at h
    · cases h
    · next hc => exact uncut_cons (fun heq hzero ↦ hc ⟨heq, hzero⟩) (ih h)

/-- The first place at which a text is cut, and the places behind it. -/
theorem exists_of_places (hopening : mark ≠ '(') (hclosing : mark ≠ ')')
    (h : places mark depth index cs = place :: places') :
    ∃ before behind, cs = before ++ mark :: behind ∧ place = index + before.length ∧
      count depth before = 0 ∧ Uncut mark depth before ∧
      places' = places mark 0 (place + 1) behind := by
  induction cs generalizing depth index with
  | nil => cases h
  | cons c cs ih =>
    rw [places_cons hopening hclosing] at h
    split at h
    · next hc =>
      obtain ⟨rfl, rfl⟩ := hc
      obtain ⟨rfl, rfl⟩ := List.cons.inj h
      exact ⟨[], cs, rfl, rfl, rfl, uncut_nil, rfl⟩
    · next hc =>
      obtain ⟨before, behind, rfl, rfl, hzero, huncut, hrest⟩ := ih h
      refine ⟨c :: before, behind, rfl, ?_, hzero, ?_, hrest⟩
      · rw [List.length_cons, Nat.add_right_comm, Nat.add_assoc]
      · exact uncut_cons (fun heq hdepth ↦ hc ⟨heq, hdepth⟩) huncut

/-- The first place at which a whole text is cut. -/
theorem exists_of_head?_places (hopening : mark ≠ '(') (hclosing : mark ≠ ')')
    (h : (places mark 0 0 cs).head? = some place) :
    ∃ before behind, cs = before ++ mark :: behind ∧ place = before.length ∧
      count 0 before = 0 ∧ Uncut mark 0 before := by
  obtain ⟨rest, hrest⟩ := List.head?_eq_some_iff.1 h
  obtain ⟨before, behind, hcs, hplace, hzero, huncut, -⟩ := exists_of_places hopening hclosing hrest
  rw [Nat.zero_add] at hplace
  exact ⟨before, behind, hcs, hplace, hzero, huncut⟩

end

/-- The pieces of a text between places, each with the place at which it starts. -/
def pieces (text : List Char) (start : Nat) : List Nat → List (List Char × Nat)
  | [] => [(text.drop start, start)]
  | place :: rest => ((text.drop start).take (place - start), start) :: pieces text (place + 1) rest

/-! ## Scanning a piece -/

/-- What the scan remembers. -/
structure Scan where
  /-- The number of open brackets. -/
  depth : Int
  /-- The depths inside the brackets of calls, the innermost first. -/
  calls : List Int
  /-- An operand is expected, and not an operator. -/
  operand : Bool
  /-- A sign stands before the operand. -/
  signed : Bool
  /-- A name may be assigned to if it is the next operand. -/
  target : Bool
  /-- The operand before the operator may be assigned to. -/
  candidate : Bool

namespace Scan

/-- The state at the start of a piece. -/
def initial : Scan := ⟨0, [], true, false, true, false⟩

/-- The state inside the brackets of a call. -/
def entersCall (s : Scan) : Scan :=
  { s with depth := s.depth + 1, calls := (s.depth + 1) :: s.calls, signed := false, target := true }

/-- The state behind an operand. -/
def hasOperand (s : Scan) (candidate : Bool) : Scan :=
  { s with operand := false, signed := false, candidate }

/-- The state before another operand. -/
def wantsOperand (s : Scan) (target : Bool) : Scan :=
  { s with operand := true, target, candidate := false }

/-- What is wrong with a piece that ends in this state. -/
def atEnd (s : Scan) (stop : Nat) : Option Problem :=
  if 0 < s.depth then some ⟨.unmatchedOpening, stop⟩
  else if s.operand then some ⟨.operatorEnds, stop⟩
  else none

end Scan

/-- A state at a place further on. -/
structure Move (index : Nat) where
  /-- The state. -/
  scan : Scan
  /-- The place. -/
  next : Nat
  /-- It is further on. -/
  lt : index < next

/-- One character further on. -/
def Move.one (index : Nat) (s : Scan) : Move index := ⟨s, index + 1, Nat.lt_succ_self index⟩

/-- Whether a binary operator at a place has nothing before it. -/
def leads (text : List Char) (index : Nat) : Bool :=
  index == 0 || text[index - 1]? == some '(' || text[index - 1]? == some ','

/-- Reads a name where an operand is expected, and the bracket of a call. -/
def nameMove (scope : Scope) (text : List Char) (offset : Nat) (s : Scan) (index : Nat)
    (name : List Char) (hne : name ≠ []) : Except Problem (Move index) :=
  let stop := index + name.length
  have hstop : index < stop := Nat.lt_add_of_pos_right (List.length_pos_iff.2 hne)
  match scope.functions.find? (String.ofList name) with
  | some f =>
    if text[stop]? ≠ some '(' then .error ⟨.functionWithoutBracket, offset + stop⟩
    else if text[stop + 1]? = some ')' then
      if f.arity ≠ 0 then .error ⟨.noArguments, offset + stop + 1⟩
      else .ok ⟨s.hasOperand false, stop + 2, Nat.lt_add_right 2 hstop⟩
    else .ok ⟨{ s.entersCall with candidate := false }, stop + 1, Nat.lt_add_right 1 hstop⟩
  | none =>
    if text[stop]? = some '(' then
      if scope.variables.has (String.ofList name) then .error ⟨.variableCalled, offset + stop⟩
      else .ok ⟨s.entersCall, stop + 1, Nat.lt_add_right 1 hstop⟩
    else .ok ⟨s.hasOperand (s.target && !s.signed), stop, hstop⟩

/-- What is wrong with a character at which no operand starts. -/
def flawOfOperand (text : List Char) (s : Scan) (index : Nat) (c : Char) : Flaw :=
  if c = ')' then if s.depth = 0 then .tooManyClosing else .noTermBeforeClosing
  else if c = ',' then .noTermBeforeComma
  else if (Operator.ofChar? c).isSome ∨ c = '=' then
    if leads text index then .noLeftOperand else .operatorAfterOperator
  else .illegalCharacter c

/-- Reads what stands at a character where an operand is expected. -/
def operandMove (scope : Scope) (text : List Char) (offset : Nat) (s : Scan) (index : Nat)
    (c : Char) : Except Problem (Move index) :=
  if c = '-' then
    if s.signed then .error ⟨.operatorAfterOperator, offset + index⟩
    else .ok (.one index { s with signed := true, target := false })
  else if c = '(' then
    .ok (.one index { s with depth := s.depth + 1, signed := false, target := true })
  else
    match hnumeral : takeNumeral? (text.drop index) with
    | some (numeral, _) =>
      .ok ⟨s.hasOperand false, index + numeral.length,
        Nat.lt_add_of_pos_right (List.length_pos_iff.2 (takeNumeral?_append hnumeral).2)⟩
    | none =>
      if c = '.' then .error ⟨.malformedNumber, offset + index⟩
      else
        match hname : takeName? (text.drop index) with
        | some (name, _) => nameMove scope text offset s index name (takeName?_append hname).2
        | none => .error ⟨flawOfOperand text s index c, offset + index⟩

/-- Reads a character where an operator is expected. -/
def operatorMove (offset : Nat) (s : Scan) (index : Nat) (c : Char) :
    Except Problem (Move index) :=
  if (Operator.ofChar? c).isSome then .ok (.one index (s.wantsOperand false))
  else if c = '=' then
    if !s.candidate then .error ⟨.badTarget, offset + index⟩
    else .ok (.one index (s.wantsOperand true))
  else if c = ',' then
    if 0 < s.depth ∧ s.calls.head? ≠ some s.depth then
      .error ⟨.commaOutsideArguments, offset + index⟩
    else .ok (.one index (s.wantsOperand true))
  else if c = ')' then
    if s.depth = 0 then .error ⟨.tooManyClosing, offset + index⟩
    else
      let calls := if s.calls.head? = some s.depth then s.calls.tail else s.calls
      .ok (.one index { s with depth := s.depth - 1, calls, candidate := false })
  else if c = '(' then .error ⟨.noOperatorBeforeBracket, offset + index⟩
  else if Text.isAlphanumeric c || c == '.' || c == '_' then .error ⟨.noOperator, offset + index⟩
  else .error ⟨.illegalCharacter c, offset + index⟩

/-- Reads what stands at a character. -/
def move (scope : Scope) (text : List Char) (offset : Nat) (s : Scan) (index : Nat) (c : Char) :
    Except Problem (Move index) :=
  if s.operand then operandMove scope text offset s index c else operatorMove offset s index c

/-- The first problem from a place of a piece on. -/
def scanFrom (scope : Scope) (text : List Char) (offset : Nat) (s : Scan) (index : Nat) :
    Option Problem :=
  match h : text[index]? with
  | some c =>
    match move scope text offset s index c with
    | .ok m => scanFrom scope text offset m.scan m.next
    | .error problem => some problem
  | none => s.atEnd (offset + text.length)
termination_by text.length - index
decreasing_by
  have := (List.getElem?_eq_some_iff.1 h).1
  have := m.lt
  omega

/-! ## Statements -/

/-- The first problem of the target of an assignment. -/
def target (scope : Scope) (text : List Char) (offset : Nat) : Option Problem :=
  if text = [] then some ⟨.noTarget, offset⟩
  else
    match scanFrom scope text offset .initial 0 with
    | some problem => some problem
    | none => if takeName? text = some (text, []) then none else some ⟨.badTarget, offset⟩

/-- The first problem of a statement that starts at a position. -/
def assignment (scope : Scope) (text : List Char) (offset : Nat) : Option Problem :=
  match h : (places '=' 0 0 text).head? with
  | none => scanFrom scope text offset .initial 0
  | some place =>
    match target scope (text.take place) offset with
    | some problem => some problem
    | none =>
      if place + 1 = text.length then some ⟨.noValue, offset + place⟩
      else assignment scope (text.drop (place + 1)) (offset + place + 1)
termination_by text.length
decreasing_by
  have hplace := lt_of_mem_places (List.mem_of_mem_head? h)
  rw [List.length_drop]
  omega

/-- The first problem of a statement that may be missing. -/
def statement (scope : Scope) (text : List Char) (offset : Nat) : Option Problem :=
  if text = [] then some ⟨.noTermBeforeComma, offset⟩ else assignment scope text offset

/-- The first problem of a text. -/
def check (scope : Scope) (text : String) : Option Problem :=
  match text.toList.getLast? with
  | none => some ⟨.empty, 0⟩
  | some last =>
    if Scope.mayEnd last then
      (pieces text.toList 0 (places ',' 0 0 text.toList)).findSome? fun piece ↦
        statement scope piece.1 piece.2
    else some ⟨.symbolEnds, text.length - 1⟩

end Cuts

end Reckoner
