import Reckoner.Proofs.Grammar.Flat
import Reckoner.Proofs.Grammar.Lexeme

/-!
# Texts with a comma between them

Commas, equals signs and brackets belong to no number and to no name, so they are tokens wherever
they stand, and the tokens of two texts with such a mark between them are those of the texts with
the mark between them (`Placed.scan_append_mark`).  The tokens of the second text only have other
positions.

`moved` adds so many characters to all positions.  The structural check commutes with it
(`Scope.problemFrom_moved`), because it does nothing with positions but to report them; and behind a
text that it accepts, a comma sets it back to its start (`Scope.problemFrom_append_comma`).
-/

set_option autoImplicit false

namespace Reckoner

open Decimal Text

/-! ## Lexemes before a mark -/

/-- A character that stands beside numbers and names and never in one. -/
def IsMark (c : Char) : Prop := c = ',' ∨ c = '=' ∨ c = '(' ∨ c = ')'

theorem IsMark.isDigit {c : Char} (h : IsMark c) : isDigit c = false := by
  rcases h with rfl | rfl | rfl | rfl <;> decide

theorem IsMark.isNamePart {c : Char} (h : IsMark c) : isNamePart c = false := by
  rcases h with rfl | rfl | rfl | rfl <;> decide

theorem IsMark.isNameStart {c : Char} (h : IsMark c) : isNameStart c = false := by
  rcases h with rfl | rfl | rfl | rfl <;> decide

/-- Lexemes of a kind are not empty and hold no mark. -/
def MarkFree (P : List Char → Prop) : Prop :=
  ∀ lexeme, P lexeme → lexeme ≠ [] ∧ ∀ c ∈ lexeme, ¬ IsMark c

theorem Digits.not_isMark {ds : List Char} (h : ∀ c ∈ ds, isDigit c = true) :
    ∀ c ∈ ds, ¬ IsMark c := by
  intro c hc hmark
  have hdigit := h c hc
  rw [hmark.isDigit] at hdigit
  cases hdigit

theorem Mantissa.not_isMark {m : List Char} (h : Mantissa m) : ∀ c ∈ m, ¬ IsMark c := by
  have hpoint : ¬ IsMark '.' := by simp [IsMark]
  cases h with
  | whole digits => exact Digits.not_isMark digits.2
  | point digits fraction =>
    rw [List.forall_mem_append, List.forall_mem_cons]
    exact ⟨Digits.not_isMark digits.2, hpoint, Digits.not_isMark fraction⟩
  | fraction digits => exact List.forall_mem_cons.2 ⟨hpoint, Digits.not_isMark digits.2⟩

theorem Exponent.not_isMark {e : List Char} (h : Exponent e) : ∀ c ∈ e, ¬ IsMark c := by
  cases h with
  | none => simp
  | some marks signs digits =>
    rw [List.forall_mem_cons, List.forall_mem_append]
    refine ⟨?_, ?_, Digits.not_isMark digits.2⟩
    · rcases marks with rfl | rfl <;> simp [IsMark]
    · rcases signs with rfl | rfl | rfl <;> simp [IsMark]

theorem markFree_numeral : MarkFree Numeral := by
  rintro lexeme h
  refine ⟨h.ne_nil, ?_⟩
  obtain ⟨mantissa, exponent⟩ := h
  exact List.forall_mem_append.2 ⟨mantissa.not_isMark, exponent.not_isMark⟩

theorem markFree_identifier : MarkFree Identifier := by
  rintro lexeme ⟨start, parts⟩
  refine ⟨List.cons_ne_nil _ _, List.forall_mem_cons.2 ⟨fun hmark ↦ ?_, fun c hc hmark ↦ ?_⟩⟩
  · rw [hmark.isNameStart] at start
    cases start
  · have hpart := parts c hc
    rw [hmark.isNamePart] at hpart
    cases hpart

section

variable {P : List Char → Prop} {mark : Char}

/-- What holds no mark and begins a text with a mark in it ends before the mark. -/
theorem prefix_of_prefix_append_mark {lexeme cs ds : List Char} (hfree : mark ∉ lexeme)
    (h : lexeme <+: cs ++ mark :: ds) : lexeme <+: cs := by
  rcases List.prefix_or_prefix_of_prefix h (List.prefix_append cs _) with hle | ⟨more, rfl⟩
  · exact hle
  · cases more with
    | nil => simp
    | cons c more =>
      obtain rfl := (List.cons_prefix_cons.1 ((List.prefix_append_right_inj cs).1 h)).1
      exact absurd (by simp) hfree

theorem MarkFree.prefix_of_append (hP : MarkFree P) (hmark : IsMark mark)
    {lexeme cs ds : List Char} (hlexeme : P lexeme) (h : lexeme <+: cs ++ mark :: ds) :
    lexeme <+: cs :=
  prefix_of_prefix_append_mark (fun hmem ↦ (hP lexeme hlexeme).2 mark hmem hmark) h

theorem Longest.append_mark (hP : MarkFree P) (hmark : IsMark mark) {lexeme rest : List Char}
    (h : Longest P lexeme rest) (ds : List Char) : Longest P lexeme (rest ++ mark :: ds) := by
  refine ⟨h.holds, fun other hprefix hother ↦ ?_⟩
  rw [← List.append_assoc] at hprefix
  exact h.le other (hP.prefix_of_append hmark hother hprefix) hother

theorem Absent.append_mark (hP : MarkFree P) (hmark : IsMark mark) {cs : List Char}
    (h : Absent P cs) (ds : List Char) : Absent P (cs ++ mark :: ds) := fun lexeme hprefix hlexeme ↦
  h lexeme (hP.prefix_of_append hmark hlexeme hprefix) hlexeme

theorem absent_nil (hP : MarkFree P) : Absent P [] := by
  rintro lexeme hprefix hlexeme
  exact (hP lexeme hlexeme).1 (List.prefix_nil.1 hprefix)

end

/-- **The tokens of two texts with a mark between them.** -/
theorem Lexes.append_mark {mark : Char} (hmark : IsMark mark) {position : Nat} {cs ds : List Char}
    {ts us : List Placed} (h : Lexes position cs ts)
    (hds : Lexes (position + cs.length + 1) ds us) :
    Lexes position (cs ++ mark :: ds) (ts ++ ⟨.ofChar mark, position + cs.length⟩ :: us) := by
  induction h with
  | nil =>
    exact .character ((absent_nil markFree_numeral).append_mark markFree_numeral hmark ds)
      ((absent_nil markFree_identifier).append_mark markFree_identifier hmark ds) hds
  | @number position numeral rest ts longest _ ih =>
    rw [List.length_append, ← Nat.add_assoc] at hds ⊢
    rw [List.append_assoc]
    exact .number (longest.append_mark markFree_numeral hmark ds) (ih hds)
  | @name position identifier rest ts longest _ ih =>
    rw [List.length_append, ← Nat.add_assoc] at hds ⊢
    rw [List.append_assoc]
    exact .name (longest.append_mark markFree_identifier hmark ds) (ih hds)
  | @character position c rest ts numerals identifiers _ ih =>
    rw [List.length_cons, ← Nat.add_assoc, Nat.add_right_comm position] at hds ⊢
    exact .character (numerals.append_mark markFree_numeral hmark ds)
      (identifiers.append_mark markFree_identifier hmark ds) (ih hds)

namespace Placed

theorem scan_append_mark {mark : Char} (hmark : IsMark mark) (position : Nat)
    (cs ds : List Char) :
    scan position (cs ++ mark :: ds) =
      scan position cs ++
        ⟨.ofChar mark, position + cs.length⟩ :: scan (position + cs.length + 1) ds :=
  (lexes_iff.1 ((lexes_iff.2 rfl).append_mark hmark (lexes_iff.2 rfl))).symm

/-- A token so many characters further on. -/
def moved (k : Nat) (t : Placed) : Placed := ⟨t.token, t.position + k⟩

@[simp] theorem moved_mk (k : Nat) (token : Token) (position : Nat) :
    moved k ⟨token, position⟩ = ⟨token, position + k⟩ := rfl

/-- The tokens of a text do not depend on its position. -/
theorem scan_moved (k position : Nat) (cs : List Char) :
    scan (position + k) cs = (scan position cs).map (moved k) := by
  fun_induction scan position cs with
  | case1 => rw [scan, List.map_nil]
  | case2 position c cs ih =>
    rw [scan, List.map_cons, ← ih, moved, Nat.add_right_comm]

/-- The tokens of two texts with a comma between them, each text read by itself. -/
theorem scan_toList_append_comma (text rest : String) :
    scan 0 (text ++ "," ++ rest).toList =
      scan 0 text.toList ++ ⟨.comma, text.length⟩ ::
        (scan 0 rest.toList).map (moved (text.length + 1)) := by
  rw [String.toList_append, String.toList_append, List.append_assoc, ← scan_moved,
    ← String.length_toList (s := text)]
  have htoken : Token.ofChar ',' = .comma := rfl
  have hscan := scan_append_mark (.inl rfl : IsMark ',') 0 text.toList rest.toList
  simpa [htoken] using hscan

theorem length_append_comma (text rest : String) :
    (text ++ "," ++ rest).length = rest.length + (text.length + 1) := by
  rw [String.length_append, String.length_append, Nat.add_comm]
  rfl

/-- A look ahead sees kinds of tokens and not where they are. -/
theorem token_map_moved_ne {k : Nat} {token : Token} {ts : List Placed}
    (h : ∀ position us, ts ≠ ⟨token, position⟩ :: us) :
    ∀ position us, ts.map (moved k) ≠ ⟨token, position⟩ :: us := by
  intro position us heq
  obtain ⟨t, vs, rfl, ht, _⟩ := List.map_eq_cons_iff.1 heq
  cases ht
  exact h t.position vs rfl

/-- A look ahead for anything but a comma sees no more where a comma follows. -/
theorem append_comma_ne {token : Token} (hcomma : token ≠ .comma) {ts : List Placed}
    (h : ∀ position us, ts ≠ ⟨token, position⟩ :: us) (comma : Nat) (vs : List Placed) :
    ∀ position us, ts ++ ⟨.comma, comma⟩ :: vs ≠ ⟨token, position⟩ :: us := by
  intro position us heq
  cases ts with
  | nil => exact hcomma (congrArg Placed.token (List.cons.inj heq).1).symm
  | cons t ts => exact h position ts (by rw [(List.cons.inj heq).1])

end Placed

/-! ## The check further on -/

/-- A problem so many characters further on. -/
def Problem.moved (k : Nat) (p : Problem) : Problem := ⟨p.flaw, p.position + k⟩

namespace Progress

variable {s s' : Progress} {k position stop : Nat} {token : Token} {before : Before} {target : Bool}

/-- A state of the check so many characters further on. -/
def moved (k : Nat) (s : Progress) : Progress := { s with start := s.start + k }

@[simp] theorem moved_mk {brackets : List Bracket} {start : Nat} {expected : Expected} :
    moved k ⟨brackets, start, expected⟩ = ⟨brackets, start + k, expected⟩ := rfl

@[simp] theorem start_moved : (s.moved k).start = s.start + k := rfl

@[simp] theorem outside_moved : (s.moved k).outside = s.outside := rfl

@[simp] theorem expected_moved : (s.moved k).expected = s.expected := rfl

@[simp] theorem afterOperand_moved :
    (s.moved k).afterOperand target = (s.afterOperand target).moved k := rfl

@[simp] theorem beforeOperand_moved :
    (s.moved k).beforeOperand before = (s.beforeOperand before).moved k := rfl

@[simp] theorem afterOpening_moved {bracket : Bracket} :
    (s.moved k).afterOpening bracket = (s.afterOpening bracket).moved k := rfl

/-- What a step comes to so many characters further on. -/
def movedStep (k : Nat) (result : Except Problem Progress) : Except Problem Progress :=
  (result.map (moved k)).mapError (Problem.moved k)

@[simp] theorem movedStep_ok : movedStep k (.ok s) = .ok (s.moved k) := rfl

@[simp] theorem movedStep_error {problem : Problem} :
    movedStep k (.error problem) = .error (problem.moved k) := rfl

/-- The value of an assignment outside all brackets does not start a text. -/
def Anchored (s : Progress) : Prop :=
  s.outside = true → s.expected = .operand .equals → 0 < s.start

theorem anchored_of_ne (h : s.expected ≠ .operand .equals) : s.Anchored :=
  fun _ heq ↦ absurd heq h

theorem anchored_afterOperand : (s.afterOperand target).Anchored :=
  anchored_of_ne (by simp [afterOperand])

theorem anchored_afterOpening {bracket : Bracket} : (s.afterOpening bracket).Anchored :=
  anchored_of_ne (by simp [afterOpening])

theorem anchored_operandStep (h : s.operandStep before token position = .ok s') : s'.Anchored := by
  refine anchored_of_ne ?_
  unfold operandStep at h
  split at h
  case h_4 =>
    split at h <;> cases h
    simp [beforeOperand]
  all_goals cases h
  all_goals simp [afterOperand, afterOpening]

theorem anchored_equalsStep (h : s.equalsStep target position = .ok s') : s'.Anchored := by
  unfold equalsStep at h
  split at h
  · cases h
  · split at h
    · cases h
      exact fun _ _ ↦ Nat.succ_pos position
    · next hinside =>
      cases h
      exact fun houtside _ ↦ absurd houtside hinside

theorem anchored_operatorStep (h : s.operatorStep target token position = .ok s') :
    s'.Anchored := by
  cases token with
  | operator op =>
    cases h
    exact anchored_of_ne (by simp [beforeOperand])
  | equals => exact anchored_equalsStep h
  | comma =>
    refine anchored_of_ne ?_
    simp only [operatorStep, commaStep] at h
    split at h <;> cases h <;> simp [beforeOperand]
  | closing =>
    refine anchored_of_ne ?_
    simp only [operatorStep, closingStep] at h
    split at h <;> cases h
    simp
  | number | name | opening | stray => cases h

/-- A missing value is reported at the equals sign, one character back from where the value should
start. -/
theorem flawOfEnd_moved (h : s.Anchored) (hs : s.expected = .operand before)
    (houtside : s.outside = true) :
    (s.moved k).flawOfEnd before (position + k) = (s.flawOfEnd before position).moved k := by
  cases before with
  | opening | operator | sign => rfl
  | equals =>
    have hstart := h houtside hs
    simp only [flawOfEnd, moved, Problem.moved, Problem.mk.injEq, true_and]
    omega

theorem operandStep_moved (h : s.Anchored) (hs : s.expected = .operand before) (k : Nat)
    (token : Token) (position : Nat) :
    (s.moved k).operandStep before token (position + k) =
      movedStep k (s.operandStep before token position) := by
  cases token with
  | operator op =>
    cases op with
    | sub =>
      simp only [operandStep]
      split <;> rfl
    | _ => rfl
  | comma =>
    by_cases houtside : s.outside = true
    · simp [operandStep, houtside, flawOfEnd_moved h hs houtside]
    · simp [operandStep, houtside, Problem.moved]
  | _ => rfl

theorem equalsStep_moved :
    (s.moved k).equalsStep target (position + k) = movedStep k (s.equalsStep target position) := by
  cases target with
  | false => by_cases houtside : s.outside = true <;> simp [equalsStep, houtside, Problem.moved]
  | true =>
    by_cases houtside : s.outside = true <;> simp [equalsStep, houtside, Nat.add_right_comm]

theorem operatorStep_moved (s : Progress) (k : Nat) (target : Bool) (token : Token)
    (position : Nat) :
    (s.moved k).operatorStep target token (position + k) =
      movedStep k (s.operatorStep target token position) := by
  cases token with
  | equals => exact equalsStep_moved
  | comma =>
    obtain ⟨_ | ⟨bracket, brackets⟩, start, expected⟩ := s
    · simp [operatorStep, commaStep, Nat.add_right_comm]
    · cases bracket <;> rfl
  | closing =>
    obtain ⟨_ | ⟨bracket, brackets⟩, start, expected⟩ := s <;> rfl
  | _ => rfl

theorem atEnd_moved (h : s.Anchored) :
    (s.moved k).atEnd (stop + k) = (s.atEnd stop).map (Problem.moved k) := by
  by_cases houtside : s.outside = true
  · cases hs : s.expected with
    | operator target => simp [atEnd, houtside, hs]
    | operand before => simp [atEnd, houtside, hs, flawOfEnd_moved h hs houtside]
  · simp [atEnd, houtside, Problem.moved]

end Progress

namespace Scope

variable {scope : Scope} {stop : Nat} {s : Progress} {ts : List Placed}

/-- **The check does nothing with positions but to report them.** -/
theorem problemFrom_moved (k : Nat) (hs : s.Anchored) :
    scope.problemFrom (stop + k) (s.moved k) (ts.map (Placed.moved k)) =
      (scope.problemFrom stop s ts).map (Problem.moved k) := by
  fun_induction problemFrom scope stop s ts with
  | case1 s =>
    rw [List.map_nil, problemFrom, Progress.atEnd_moved hs]
  | case2 s position before text hexpected f opening closing rest hfind harity =>
    simp [problemFrom, hexpected, hfind, harity, Problem.moved]
  | case3 s position before text hexpected f opening closing rest hfind harity ih =>
    simpa [problemFrom, hexpected, hfind, harity] using
      ih Progress.anchored_afterOperand
  | case4 s position before text hexpected f opening rest hclosing hfind ih =>
    have hmoved := Placed.token_map_moved_ne (k := k) hclosing
    simpa [problemFrom, hexpected, hfind, hmoved] using
      ih Progress.anchored_afterOpening
  | case5 s position rest before text hexpected f hfind _ hopening =>
    have hmoved := Placed.token_map_moved_ne (k := k) hopening
    simp [problemFrom, hexpected, hfind, hmoved, Problem.moved, Nat.add_right_comm]
  | case6 s position before text hexpected opening rest hfind hhas =>
    simp [problemFrom, hexpected, hfind, hhas, Problem.moved]
  | case7 s position before text hexpected opening rest hfind hhas ih =>
    simpa [problemFrom, hexpected, hfind, hhas] using
      ih Progress.anchored_afterOpening
  | case8 s position before text hexpected rest hopening hfind ih =>
    have hmoved := Placed.token_map_moved_ne (k := k) hopening
    simpa [problemFrom, hexpected, hfind, hmoved] using
      ih Progress.anchored_afterOperand
  | case9 s position rest before token hname hexpected s' hstep ih =>
    have hmoved := Progress.operandStep_moved hs hexpected k token position
    rw [hstep] at hmoved
    simpa [problemFrom, hexpected, hmoved] using ih (Progress.anchored_operandStep hstep)
  | case10 s position rest before token hname hexpected problem hstep =>
    have hmoved := Progress.operandStep_moved hs hexpected k token position
    rw [hstep] at hmoved
    simp [problemFrom, hexpected, hmoved]
  | case11 s position rest target token hexpected s' hstep ih =>
    have hmoved := s.operatorStep_moved k target token position
    rw [hstep] at hmoved
    simpa [problemFrom, hexpected, hmoved] using
      ih (Progress.anchored_operatorStep hstep)
  | case12 s position rest target token hexpected problem hstep =>
    have hmoved := s.operatorStep_moved k target token position
    rw [hstep] at hmoved
    simp [problemFrom, hexpected, hmoved]

/-- **Behind tokens that the check accepts, a comma sets it back to its start.** -/
theorem problemFrom_append_comma (h : scope.problemFrom stop s ts = none) (stop' comma : Nat)
    (us : List Placed) :
    scope.problemFrom stop' s (ts ++ ⟨.comma, comma⟩ :: us) =
      scope.problemFrom stop' ⟨[], comma + 1, .operand .opening⟩ us := by
  fun_induction problemFrom scope stop s ts with
  | case1 s =>
    obtain ⟨brackets, start, expected⟩ := s
    unfold Progress.atEnd at h
    split at h
    · cases h
    · next houtside =>
      obtain rfl : brackets = [] := by simpa [Progress.outside] using houtside
      split at h
      · cases h
      · next target hexpected =>
        obtain rfl : expected = .operator target := hexpected
        rfl
  | case3 s position before text hexpected f opening closing rest hfind harity ih =>
    simpa [problemFrom, hexpected, hfind, harity] using ih h
  | case4 s position before text hexpected f opening rest hclosing hfind ih =>
    have hbehind := Placed.append_comma_ne (by simp) hclosing comma us
    simpa [problemFrom, hexpected, hfind, hbehind] using ih h
  | case7 s position before text hexpected opening rest hfind hhas ih =>
    simpa [problemFrom, hexpected, hfind, hhas] using ih h
  | case8 s position before text hexpected rest hopening hfind ih =>
    have hbehind := Placed.append_comma_ne (by simp) hopening comma us
    simpa [problemFrom, hexpected, hfind, hbehind] using ih h
  | case9 s position rest before token hname hexpected s' hstep ih =>
    simpa [problemFrom, hexpected, hstep] using ih h
  | case11 s position rest target token hexpected s' hstep ih =>
    simpa [problemFrom, hexpected, hstep] using ih h
  | _ => cases h

/-! ## Two texts -/

variable {text rest : String}

theorem problem?_none_iff :
    scope.problem? text = none ↔ (∃ last, text.toList.getLast? = some last ∧ mayEnd last = true) ∧
      scope.problemFrom text.length .initial (Placed.scan 0 text.toList) = none := by
  unfold problem?
  cases text.toList.getLast? with
  | none => simp
  | some last => by_cases hlast : mayEnd last = true <;> simp [hlast]

/-- Behind a text that is accepted and a comma, the check finds what it finds in the second text by
itself, further on. -/
theorem problemFrom_scan_append_comma (h : scope.problem? text = none) (rest : String) :
    scope.problemFrom (text ++ "," ++ rest).length .initial
        (Placed.scan 0 (text ++ "," ++ rest).toList) =
      (scope.problemFrom rest.length .initial (Placed.scan 0 rest.toList)).map
        (Problem.moved (text.length + 1)) := by
  have hinitial : (⟨[], text.length + 1, .operand .opening⟩ : Progress) =
      Progress.initial.moved (text.length + 1) := by simp [Progress.initial]
  rw [Placed.scan_toList_append_comma, Placed.length_append_comma,
    problemFrom_append_comma (problem?_none_iff.1 h).2, hinitial,
    problemFrom_moved _ (Progress.anchored_of_ne (by simp [Progress.initial]))]

/-- The end of two texts with a comma between them is that of the second one. -/
theorem getLast?_append_comma (text : String) (hrest : rest ≠ "") :
    (text ++ "," ++ rest).toList.getLast? = rest.toList.getLast? := by
  have hne : rest.toList ≠ [] := mt String.toList_eq_nil_iff.1 hrest
  rw [String.toList_append, List.getLast?_append, List.getLast?_eq_some_getLast hne]
  rfl

/-- Two texts that are accepted may have a comma between them. -/
theorem problem?_append_comma_eq_none (h : scope.problem? text = none)
    (hrest : scope.problem? rest = none) : scope.problem? (text ++ "," ++ rest) = none := by
  obtain ⟨⟨last, hlast, hmay⟩, hproblem⟩ := problem?_none_iff.1 hrest
  have hne : rest ≠ "" := by
    rintro rfl
    cases hlast
  refine problem?_none_iff.2 ⟨⟨last, (getLast?_append_comma text hne).trans hlast, hmay⟩, ?_⟩
  rw [problemFrom_scan_append_comma h, hproblem]
  rfl

/-- **A later statement is reported at its own place.**  Behind a text that is accepted and a comma,
a text that is not empty has no problem if it has none by itself.  If it has one, whatever brackets
it leaves open or closes too many of, its problem is the same, so many characters further on. -/
theorem problem?_append_comma (h : scope.problem? text = none) (hrest : rest ≠ "") :
    scope.problem? (text ++ "," ++ rest) =
      (scope.problem? rest).map fun p ↦ ⟨p.flaw, p.position + (text.length + 1)⟩ := by
  have hne : rest.toList ≠ [] := mt String.toList_eq_nil_iff.1 hrest
  show _ = (scope.problem? rest).map (Problem.moved (text.length + 1))
  rw [problem?, problem?, getLast?_append_comma text hrest, List.getLast?_eq_some_getLast hne]
  by_cases hlast : mayEnd (rest.toList.getLast hne) = true
  · simp only [if_pos hlast]
    exact problemFrom_scan_append_comma h rest
  · have hpos : 0 < rest.length := by
      rw [← String.length_toList]
      exact List.length_pos_iff.2 hne
    have hplace : (text ++ "," ++ rest).length - 1 = rest.length - 1 + (text.length + 1) := by
      rw [Placed.length_append_comma]
      omega
    simp only [if_neg hlast, hplace]
    rfl

/-- A text that closes a bracket which it did not open, and then opens one. -/
theorem problem?_append_comma_closing :
    problem? ⟨.standard, .empty, 100⟩ "max(1,2)" = none ∧ "3)*(4" ≠ "" ∧
      problem? ⟨.standard, .empty, 100⟩ "3)*(4" = some ⟨.tooManyClosing, 1⟩ ∧
      problem? ⟨.standard, .empty, 100⟩ "max(1,2),3)*(4" = some ⟨.tooManyClosing, 10⟩ := by
  have haccepted : problem? ⟨.standard, .empty, 100⟩ "max(1,2)" = none := by decide +kernel
  have hrest : problem? ⟨.standard, .empty, 100⟩ "3)*(4" = some ⟨.tooManyClosing, 1⟩ := by
    decide +kernel
  have hmoved := problem?_append_comma haccepted (show "3)*(4" ≠ "" by decide)
  rw [hrest] at hmoved
  exact ⟨haccepted, by decide, hrest, hmoved⟩

end Scope

end Reckoner
