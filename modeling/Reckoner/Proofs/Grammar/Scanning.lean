import Reckoner.Proofs.Grammar.Carries
import Reckoner.Proofs.Grammar.Commas
import Reckoner.Proofs.Grammar.Cuts

/-!
# The scan of a piece goes with the check

The scan of a piece and the check of a whole text meet the same things in the same order: the scan
at characters, the check at tokens.  `Cuts.Matches` says that the counters of the one are those of
the open brackets of the other, and that the one expects what the other expects.

* `Cuts.moves` is the step.  What the scan does at a character, the check does with the tokens up to
  the place where the scan goes on.
* `Cuts.scanned` is the whole piece.  No comma and no equals sign in it stands outside all brackets,
  so that the check never comes to the end of a statement or to a value.
-/

set_option autoImplicit false

namespace Reckoner

open Decimal Text

namespace Cuts

/-- Numbers and names hold no brackets. -/
theorem count_of_not_isMark {depth : Int} {cs : List Char} (h : ∀ c ∈ cs, ¬ IsMark c) :
    count depth cs = depth := by
  induction cs with
  | nil => rfl
  | cons c cs ih =>
    obtain ⟨hc, hcs⟩ := List.forall_mem_cons.1 h
    simp only [IsMark, not_or] at hc
    rw [count, if_neg hc.2.2.1, if_neg hc.2.2.2]
    exact ih hcs

/-! ## The states of the scan and of the check -/

/-- The depths inside the brackets of calls. -/
def callDepths : List Bracket → List Int
  | [] => []
  | .group :: brackets => callDepths brackets
  | .call :: brackets => ((brackets.length : Int) + 1) :: callDepths brackets

theorem le_of_mem_callDepths {brackets : List Bracket} {depth : Int}
    (h : depth ∈ callDepths brackets) : depth ≤ brackets.length := by
  induction brackets with
  | nil => cases h
  | cons bracket brackets ih =>
    rw [List.length_cons]
    cases bracket with
    | group =>
      have := ih h
      omega
    | call =>
      rcases List.mem_cons.1 h with rfl | h
      · omega
      · have := ih h
        omega

/-- Inside a bracket that is not of a call there is no comma. -/
theorem head?_callDepths_group (brackets : List Bracket) :
    (callDepths (.group :: brackets)).head? ≠ some ((brackets.length : Int) + 1) := by
  intro h
  have hle : (brackets.length : Int) + 1 ≤ brackets.length :=
    le_of_mem_callDepths (List.mem_of_mem_head? h)
  omega

/-- The counters of a scan are those of open brackets. -/
structure Opened (s : Scan) (brackets : List Bracket) : Prop where
  /-- The number of the brackets. -/
  depth_eq : s.depth = brackets.length
  /-- The depths inside those of calls. -/
  calls_eq : s.calls = callDepths brackets

/-- The scan is before an operand, as the check is. -/
structure Awaits (text : List Char) (index : Nat) (s : Scan) (brackets : List Bracket)
    (before : Before) : Prop where
  /-- The same brackets are open. -/
  opened : Opened s brackets
  /-- An operand is expected. -/
  operand : s.operand = true
  /-- A sign stands before it. -/
  signed_iff : s.signed = true ↔ before = .sign
  /-- A name may be assigned to. -/
  target_eq : s.target = before.allowsTarget
  /-- An operator would have nothing before it. -/
  leads_iff : leads text index = true ↔ before = .opening ∨ before = .equals ∧ brackets = []
  /-- Outside all brackets nothing stands before a name that may be assigned to. -/
  first : brackets = [] → before.allowsTarget = true → index = 0

/-- The scan is behind an operand, as the check is. -/
structure Holds (text : List Char) (index : Nat) (s : Scan) (brackets : List Bracket)
    (target : Bool) : Prop where
  /-- The same brackets are open. -/
  opened : Opened s brackets
  /-- An operator is expected. -/
  operand : s.operand = false
  /-- No sign waits for an operand. -/
  signed : s.signed = false
  /-- The operand may be assigned to. -/
  candidate : s.candidate = target
  /-- Outside all brackets it is then all that was read. -/
  named : brackets = [] → target = true → takeName? (text.take index) = some (text.take index, [])

/-- The scan of a piece that starts at a position is where the check is. -/
inductive Matches (text : List Char) (offset index : Nat) (s : Scan) : Progress → Prop
  | awaits {brackets : List Bracket} {before : Before} (h : Awaits text index s brackets before) :
    Matches text offset index s ⟨brackets, offset, .operand before⟩
  | holds {brackets : List Bracket} {target : Bool} (h : Holds text index s brackets target) :
    Matches text offset index s ⟨brackets, offset, .operator target⟩

section

variable {text : List Char} {index : Nat} {c : Char} {s : Scan} {brackets : List Bracket}
  {before : Before}

/-- What stands before the next character is this one. -/
theorem leads_succ (h : text[index]? = some c) :
    leads text (index + 1) = (c == '(' || c == ',') := by
  simp [leads, h]

theorem Opened.depth_eq_zero_iff (h : Opened s brackets) : s.depth = 0 ↔ brackets = [] := by
  rw [h.depth_eq, Int.natCast_eq_zero, List.length_eq_zero_iff]

theorem Opened.pos_iff (h : Opened s brackets) : 0 < s.depth ↔ brackets ≠ [] := by
  rw [h.depth_eq, Int.natCast_pos, List.length_pos_iff]

/-- What is wrong with an operator before an operand. -/
theorem Awaits.flawOfOperator (h : Awaits text index s brackets before) (offset : Nat)
    (expected : Expected) :
    Progress.flawOfOperator ⟨brackets, offset, expected⟩ before =
      if leads text index then .noLeftOperand else .operatorAfterOperator := by
  have hleads := h.leads_iff
  cases before <;> cases brackets <;>
    simp_all [Progress.flawOfOperator, Progress.outside]

end

/-! ## Tokens of a piece -/

/-- The tokens from a place of a piece on. -/
def tokensFrom (text : List Char) (offset index : Nat) : List Placed :=
  Placed.scan (offset + index) (text.drop index)

section

variable {text : List Char} {offset index stop : Nat} {token : Token} {c : Char}
  {lexeme rest : List Char}

theorem tokensFrom_eq (text : List Char) (offset index : Nat) :
    tokensFrom text offset index = (tokensAt text index).map (Placed.moved offset) := by
  rw [tokensFrom, tokensAt, ← Placed.scan_moved, Nat.add_comm]

theorem tokensFrom_of_tokensAt
    (h : tokensAt text index = ⟨token, index⟩ :: tokensAt text stop) :
    tokensFrom text offset index = ⟨token, offset + index⟩ :: tokensFrom text offset stop := by
  rw [tokensFrom_eq, h, List.map_cons, ← tokensFrom_eq, Placed.moved_mk, Nat.add_comm]

theorem tokensFrom_of_mark (h : text[index]? = some c)
    (hnext : ∀ cs, Token.next c cs = (token, cs)) :
    tokensFrom text offset index = ⟨token, offset + index⟩ :: tokensFrom text offset (index + 1) :=
  tokensFrom_of_tokensAt (tokensAt_of_mark h hnext)

theorem tokensFrom_of_opening (h : text[index]? = some '(') :
    tokensFrom text offset index =
      ⟨.opening, offset + index⟩ :: tokensFrom text offset (index + 1) :=
  tokensFrom_of_mark h fun _ ↦ rfl

theorem tokensFrom_of_closing (h : text[index]? = some ')') :
    tokensFrom text offset index =
      ⟨.closing, offset + index⟩ :: tokensFrom text offset (index + 1) :=
  tokensFrom_of_mark h fun _ ↦ rfl

theorem tokensFrom_of_name (hnumeral : takeNumeral? (text.drop index) = none)
    (h : takeName? (text.drop index) = some (lexeme, rest)) :
    tokensFrom text offset index =
      ⟨.name (String.ofList lexeme), offset + index⟩ ::
        tokensFrom text offset (index + lexeme.length) :=
  tokensFrom_of_tokensAt (tokensAt_of_name hnumeral h)

/-- A token does not stand where its first character does not. -/
theorem tokensFrom_ne (hchars : token.chars.head? = some c) (h : text[index]? ≠ some c) :
    ∀ position us, tokensFrom text offset index ≠ ⟨token, position⟩ :: us := by
  rw [tokensFrom_eq]
  exact Placed.token_map_moved_ne (tokensAt_ne hchars h)

/-- A lexeme that is taken off at a place, and what is behind it. -/
theorem drop_add_of_append (h : lexeme ++ rest = text.drop index) :
    text.drop index = lexeme ++ text.drop (index + lexeme.length) := by
  rw [← List.drop_drop, ← h, List.drop_left]

/-- It starts with the character there. -/
theorem first_of_append {d : Char} (h : text[index]? = some c)
    (happend : d :: lexeme ++ rest = text.drop index) : d = c := by
  rw [drop_of_getElem? h] at happend
  exact (List.cons.inj happend).1

end

/-! ## One move -/

/-- What the scan comes to at a character is what the check comes to with the tokens from there on:
the same problem, or states that match at the place where the scan goes on. -/
inductive Moves (scope : Scope) (text : List Char) (offset index : Nat) (s : Scan) (p : Progress) :
    Except Problem (Move index) → Prop
  | refused {problem : Problem}
    (carries : scope.Carries p (tokensFrom text offset index) (.error problem)) :
    Moves scope text offset index s p (.error problem)
  | moves {m : Move index} {p' : Progress} {read : List Char}
    (hmatches : Matches text offset m.next m.scan p')
    (carries : ∀ result, scope.Carries p' (tokensFrom text offset m.next) result →
      scope.Carries p (tokensFrom text offset index) result)
    (ahead : text.drop index = read ++ text.drop m.next)
    (depth_eq : m.scan.depth = count s.depth read) :
    Moves scope text offset index s p (.ok m)

section

variable {scope : Scope} {text : List Char} {offset index stop : Nat} {c : Char} {s s' : Scan}
  {brackets : List Bracket} {before : Before} {target : Bool} {token : Token} {p' : Progress}
  {problem : Problem}

/-- A token of one character, where an operand is expected. -/
theorem Moves.operand (h : text[index]? = some c)
    (htokens : tokensFrom text offset index =
      ⟨token, offset + index⟩ :: tokensFrom text offset (index + 1))
    (hname : ∀ name, token ≠ .name name)
    (hstep : Progress.operandStep ⟨brackets, offset, .operand before⟩ before token
      (offset + index) = .ok p')
    (hmatches : Matches text offset (index + 1) s' p') (hdepth : s'.depth = count s.depth [c]) :
    Moves scope text offset index s ⟨brackets, offset, .operand before⟩ (.ok (.one index s')) := by
  refine .moves hmatches (fun result hcarries ↦ ?_) (drop_of_getElem? h) hdepth
  rw [htokens]
  exact Scope.carries_operand hname hstep hcarries

/-- A token that does not stand where an operand is expected. -/
theorem Moves.operand_error
    (htokens : tokensFrom text offset index =
      ⟨token, offset + index⟩ :: tokensFrom text offset stop)
    (hname : ∀ name, token ≠ .name name)
    (hstep : Progress.operandStep ⟨brackets, offset, .operand before⟩ before token
      (offset + index) = .error problem) :
    Moves scope text offset index s ⟨brackets, offset, .operand before⟩ (.error problem) := by
  refine .refused ?_
  rw [htokens]
  exact Scope.carries_operand_error hname hstep

/-- A token of one character, where an operator is expected. -/
theorem Moves.operator (h : text[index]? = some c)
    (htokens : tokensFrom text offset index =
      ⟨token, offset + index⟩ :: tokensFrom text offset (index + 1))
    (hstep : Progress.operatorStep ⟨brackets, offset, .operator target⟩ target token
      (offset + index) = .ok p')
    (hmatches : Matches text offset (index + 1) s' p') (hdepth : s'.depth = count s.depth [c]) :
    Moves scope text offset index s ⟨brackets, offset, .operator target⟩ (.ok (.one index s')) := by
  refine .moves hmatches (fun result hcarries ↦ ?_) (drop_of_getElem? h) hdepth
  rw [htokens]
  exact Scope.carries_operator hstep hcarries

/-- A token that does not stand where an operator is expected. -/
theorem Moves.operator_error
    (htokens : tokensFrom text offset index =
      ⟨token, offset + index⟩ :: tokensFrom text offset stop)
    (hstep : Progress.operatorStep ⟨brackets, offset, .operator target⟩ target token
      (offset + index) = .error problem) :
    Moves scope text offset index s ⟨brackets, offset, .operator target⟩ (.error problem) := by
  refine .refused ?_
  rw [htokens]
  exact Scope.carries_operator_error hstep

end

/-! ### Where an operand is expected -/

section

variable {scope : Scope} {text : List Char} {offset index : Nat} {c : Char} {s s' : Scan}
  {brackets : List Bracket} {before before' : Before}

/-- The scan is before an operand behind one character more. -/
theorem awaits_next (h : text[index]? = some c) (hopened : Opened s' brackets)
    (hoperand : s'.operand = true) (hsigned : s'.signed = true ↔ before' = .sign)
    (htarget : s'.target = before'.allowsTarget)
    (hleads : (c = '(' ∨ c = ',') ↔ before' = .opening)
    (hinside : before'.allowsTarget = true → brackets ≠ []) :
    Awaits text (index + 1) s' brackets before' := by
  refine ⟨hopened, hoperand, hsigned, htarget, ?_, fun hnone hallows ↦ ?_⟩
  · rw [leads_succ h, Bool.or_eq_true, beq_iff_eq, beq_iff_eq, hleads]
    refine ⟨.inl, fun hbefore ↦ hbefore.resolve_right ?_⟩
    rintro ⟨rfl, hnone⟩
    exact hinside rfl hnone
  · exact absurd hnone (hinside hallows)

theorem Opened.group (h : Opened s brackets) (hdepth : s'.depth = s.depth + 1)
    (hcalls : s'.calls = s.calls) : Opened s' (.group :: brackets) :=
  ⟨by simp [hdepth, h.depth_eq], hcalls.trans h.calls_eq⟩

/-- Behind an operand that is no name there is nothing to assign to. -/
theorem Opened.holds (h : Opened s brackets) (text : List Char) (index : Nat) :
    Holds text index (s.hasOperand false) brackets false :=
  ⟨⟨h.depth_eq, h.calls_eq⟩, rfl, rfl, rfl, by simp⟩

theorem Opened.call (h : Opened s brackets) (hdepth : s'.depth = s.depth + 1)
    (hcalls : s'.calls = (s.depth + 1) :: s.calls) : Opened s' (.call :: brackets) := by
  refine ⟨by simp [hdepth, h.depth_eq], ?_⟩
  rw [hcalls, h.depth_eq, h.calls_eq, callDepths]

theorem moves_sign (hs : Awaits text index s brackets before) (h : text[index]? = some '-') :
    Moves scope text offset index s ⟨brackets, offset, .operand before⟩
      (if s.signed then .error ⟨.operatorAfterOperator, offset + index⟩
      else .ok (.one index { s with signed := true, target := false })) := by
  have htokens : tokensFrom text offset index =
      ⟨.operator .sub, offset + index⟩ :: tokensFrom text offset (index + 1) :=
    tokensFrom_of_tokensAt (tokensAt_of_operator h)
  split
  · next hsigned =>
    obtain rfl := hs.signed_iff.1 hsigned
    exact .operand_error htokens (by simp) rfl
  · next hsigned =>
    have hbefore : before ≠ .sign := mt hs.signed_iff.2 hsigned
    have hnext : Awaits text (index + 1) { s with signed := true, target := false } brackets
        .sign :=
      awaits_next h ⟨hs.opened.depth_eq, hs.opened.calls_eq⟩ hs.operand (by simp) rfl (by simp)
        (by simp [Before.allowsTarget])
    refine .operand h htokens (by simp) ?_ (.awaits hnext) rfl
    rw [Progress.operandStep, if_neg hbefore]
    rfl

theorem moves_opening (hs : Awaits text index s brackets before) (h : text[index]? = some '(') :
    Moves scope text offset index s ⟨brackets, offset, .operand before⟩
      (.ok (.one index { s with depth := s.depth + 1, signed := false, target := true })) := by
  have hnext : Awaits text (index + 1)
      { s with depth := s.depth + 1, signed := false, target := true } (.group :: brackets)
      .opening :=
    awaits_next h (hs.opened.group rfl rfl) hs.operand (by simp) rfl (by simp) (by simp)
  exact .operand h (tokensFrom_of_opening h) (by simp) rfl (.awaits hnext) rfl

theorem moves_numeral (hs : Awaits text index s brackets before) {numeral rest : List Char}
    (h : takeNumeral? (text.drop index) = some (numeral, rest))
    (hlt : index < index + numeral.length) :
    Moves scope text offset index s ⟨brackets, offset, .operand before⟩
      (.ok ⟨s.hasOperand false, index + numeral.length, hlt⟩) := by
  have hfree := (markFree_numeral numeral (numeral_of_takeNumeral? h)).2
  refine .moves (.holds (hs.opened.holds text _)) (fun result hcarries ↦ ?_)
    (drop_add_of_append (takeNumeral?_append h).1) (count_of_not_isMark hfree).symm
  rw [tokensFrom_of_tokensAt (tokensAt_of_numeral h)]
  exact Scope.carries_operand (by simp) rfl hcarries

/-- A character that is a token of no other kind. -/
theorem ofChar?_of_stray (h : Token.ofChar c = .stray c) :
    Operator.ofChar? c = none ∧ c ≠ ')' ∧ c ≠ ',' ∧ c ≠ '=' := by
  refine ⟨?_, ?_, ?_, ?_⟩
  · unfold Token.ofChar at h
    split at h
    · cases h
    · assumption
  all_goals
    rintro rfl
    cases h

/-- What is wrong with a character at which no operand starts. -/
theorem moves_flaw (hs : Awaits text index s brackets before) (h : text[index]? = some c)
    (hcomma : Uncut ',' s.depth (text.drop index)) (hequals : Uncut '=' s.depth (text.drop index))
    (hnumeral : takeNumeral? (text.drop index) = none) (hname : takeName? (text.drop index) = none)
    (hsign : c ≠ '-') (hopening : c ≠ '(') (hpoint : c ≠ '.') :
    Moves scope text offset index s ⟨brackets, offset, .operand before⟩
      (.error ⟨flawOfOperand text s index c, offset + index⟩) := by
  refine .operand_error (tokensFrom_of_tokensAt (tokensAt_of_char h hnumeral hname))
    (Token.ofChar_ne c).2 ?_
  rw [drop_of_getElem? h] at hcomma hequals
  have hchars := Token.chars_ofChar c
  generalize htoken : Token.ofChar c = token at hchars
  cases token with
  | number numeral => exact absurd htoken ((Token.ofChar_ne c).1 numeral)
  | name name => exact absurd htoken ((Token.ofChar_ne c).2 name)
  | opening =>
    cases hchars
    exact absurd rfl hopening
  | closing =>
    cases hchars
    rw [flawOfOperand, if_pos rfl]
    cases brackets with
    | nil => rw [if_pos (hs.opened.depth_eq_zero_iff.2 rfl)]; rfl
    | cons bracket brackets => rw [if_neg (by simp [hs.opened.depth_eq_zero_iff])]; rfl
  | comma =>
    cases hchars
    cases brackets with
    | nil => exact absurd (hs.opened.depth_eq_zero_iff.2 rfl) hcomma.ne_zero
    | cons bracket brackets => rfl
  | operator op =>
    obtain rfl : op.symbol = c := (List.cons.inj hchars).1
    have hflaw : flawOfOperand text s index op.symbol =
        if leads text index then .noLeftOperand else .operatorAfterOperator := by
      cases op <;> rfl
    rw [hflaw, ← hs.flawOfOperator offset (.operand before)]
    cases op with
    | sub => exact absurd rfl hsign
    | _ => rfl
  | equals =>
    cases hchars
    cases brackets with
    | nil => exact absurd (hs.opened.depth_eq_zero_iff.2 rfl) hequals.ne_zero
    | cons bracket brackets =>
      have hflaw : flawOfOperand text s index '=' =
          if leads text index then .noLeftOperand else .operatorAfterOperator := rfl
      rw [hflaw, ← hs.flawOfOperator offset (.operand before)]
      rfl
  | stray d =>
    obtain rfl : d = c := (List.cons.inj hchars).1
    obtain ⟨hoperator, hclosing, hcomma, hequals⟩ := ofChar?_of_stray htoken
    rw [flawOfOperand, if_neg hclosing, if_neg hcomma, if_neg (by simp [hoperator, hequals]),
      Progress.operandStep, if_neg hpoint]

end

/-! ### Names -/

section

variable {scope : Scope} {text : List Char} {offset index : Nat} {s : Scan}
  {brackets : List Bracket} {before : Before} {name rest : List Char}

theorem identifier_of_takeName? {cs : List Char} (h : takeName? cs = some (name, rest)) :
    Identifier name := by
  cases cs with
  | nil => cases h
  | cons c cs =>
    rw [takeName?] at h
    split at h
    · next hstart =>
      cases h
      exact (longest_identifier hstart cs).holds
    · cases h

/-- A name is taken off as a whole. -/
theorem takeName?_self (h : Identifier name) : takeName? name = some (name, []) := by
  obtain @⟨c, cs, hstart, hparts⟩ := h
  have htake : (cs ++ []).takeWhile isNamePart = cs ++ [] := List.takeWhile_append_of_pos hparts
  have hdrop : (cs ++ []).dropWhile isNamePart = [] := List.dropWhile_append_of_pos hparts
  rw [List.append_nil] at htake hdrop
  rw [takeName?, if_pos hstart, htake, hdrop]

/-- A name outside all brackets that may be assigned to is all that was read. -/
theorem Awaits.holds_name (hs : Awaits text index s brackets before)
    (hname : takeName? (text.drop index) = some (name, rest)) :
    Holds text (index + name.length) (s.hasOperand (s.target && !s.signed)) brackets
      before.allowsTarget := by
  refine ⟨⟨hs.opened.depth_eq, hs.opened.calls_eq⟩, rfl, rfl, ?_, fun hnone hallows ↦ ?_⟩
  · show (s.target && !s.signed) = before.allowsTarget
    have hsigned := hs.signed_iff
    rw [hs.target_eq]
    cases before <;> simp_all [Before.allowsTarget]
  · obtain rfl := hs.first hnone hallows
    have happend := (takeName?_append hname).1
    rw [List.drop_zero] at happend
    rw [Nat.zero_add, ← happend, List.take_left]
    exact takeName?_self (identifier_of_takeName? hname)

/-- A name and the bracket behind it. -/
theorem moves_call (hs : Awaits text index s brackets before)
    (hname : takeName? (text.drop index) = some (name, rest))
    (hopening : text[index + name.length]? = some '(') (candidate : Bool)
    (hlt : index < index + name.length + 1)
    (hcarries : ∀ result, scope.Carries ⟨.call :: brackets, offset, .operand .opening⟩
        (tokensFrom text offset (index + name.length + 1)) result →
      scope.Carries ⟨brackets, offset, .operand before⟩ (tokensFrom text offset index) result) :
    Moves scope text offset index s ⟨brackets, offset, .operand before⟩
      (.ok ⟨{ s.entersCall with candidate }, index + name.length + 1, hlt⟩) := by
  have hfree := (markFree_identifier name (identifier_of_takeName? hname)).2
  have hnext : Awaits text (index + name.length + 1) { s.entersCall with candidate }
      (.call :: brackets) .opening :=
    awaits_next hopening (hs.opened.call rfl rfl) hs.operand (by simp [Scan.entersCall]) rfl
      (by simp) (by simp)
  have hahead : text.drop index = (name ++ ['(']) ++ text.drop (index + name.length + 1) := by
    rw [drop_add_of_append (takeName?_append hname).1, drop_of_getElem? hopening,
      List.append_assoc]
    rfl
  refine .moves (.awaits hnext) hcarries hahead ?_
  rw [count_append, count_of_not_isMark hfree]
  rfl

/-- A call without arguments. -/
theorem moves_callNone (hs : Awaits text index s brackets before)
    (hname : takeName? (text.drop index) = some (name, rest))
    (hopening : text[index + name.length]? = some '(')
    (hclosing : text[index + name.length + 1]? = some ')')
    (hlt : index < index + name.length + 2)
    (hcarries : ∀ result, scope.Carries ⟨brackets, offset, .operator false⟩
        (tokensFrom text offset (index + name.length + 2)) result →
      scope.Carries ⟨brackets, offset, .operand before⟩ (tokensFrom text offset index) result) :
    Moves scope text offset index s ⟨brackets, offset, .operand before⟩
      (.ok ⟨s.hasOperand false, index + name.length + 2, hlt⟩) := by
  have hfree := (markFree_identifier name (identifier_of_takeName? hname)).2
  have hahead : text.drop index = (name ++ ['(', ')']) ++ text.drop (index + name.length + 2) := by
    rw [drop_add_of_append (takeName?_append hname).1, drop_of_getElem? hopening,
      drop_of_getElem? hclosing, List.append_assoc]
    rfl
  refine .moves (.holds (hs.opened.holds text _)) hcarries hahead ?_
  rw [count_append, count_of_not_isMark hfree]
  exact (Int.add_sub_cancel s.depth 1).symm

/-- The name of a function. -/
theorem moves_function {f : Function} (hs : Awaits text index s brackets before)
    (hnumeral : takeNumeral? (text.drop index) = none)
    (hname : takeName? (text.drop index) = some (name, rest)) (hne : name ≠ [])
    (hfind : scope.functions.find? (String.ofList name) = some f) :
    Moves scope text offset index s ⟨brackets, offset, .operand before⟩
      (nameMove scope text offset s index name hne) := by
  rw [nameMove, hfind]
  dsimp only
  by_cases hopening : text[index + name.length]? = some '('
  · rw [if_neg (by simp [hopening])]
    split
    · next hclosing =>
      split
      · next harity =>
        refine .refused ?_
        rw [tokensFrom_of_name hnumeral hname, tokensFrom_of_opening hopening,
          tokensFrom_of_closing hclosing]
        exact Scope.carries_noArguments hfind harity
      · next harity =>
        refine moves_callNone hs hname hopening hclosing _ fun result hcarries ↦ ?_
        rw [tokensFrom_of_name hnumeral hname, tokensFrom_of_opening hopening,
          tokensFrom_of_closing hclosing]
        exact Scope.carries_callNone hfind (Decidable.not_not.1 harity) hcarries
    · next hclosing =>
      refine moves_call hs hname hopening false _ fun result hcarries ↦ ?_
      rw [tokensFrom_of_name hnumeral hname, tokensFrom_of_opening hopening]
      exact Scope.carries_call hfind (tokensFrom_ne rfl hclosing) hcarries
  · rw [if_pos hopening]
    have hposition : offset + (index + name.length) =
        offset + index + (String.ofList name).length := by
      rw [String.length_ofList, Nat.add_assoc]
    refine .refused ?_
    rw [tokensFrom_of_name hnumeral hname, hposition]
    exact Scope.carries_noBracket hfind (tokensFrom_ne rfl hopening)

/-- A name that stands for no function. -/
theorem moves_free (hs : Awaits text index s brackets before)
    (hnumeral : takeNumeral? (text.drop index) = none)
    (hname : takeName? (text.drop index) = some (name, rest)) (hne : name ≠ [])
    (hfind : scope.functions.find? (String.ofList name) = none) :
    Moves scope text offset index s ⟨brackets, offset, .operand before⟩
      (nameMove scope text offset s index name hne) := by
  rw [nameMove, hfind]
  dsimp only
  split
  · next hopening =>
    split
    · next hhas =>
      refine .refused ?_
      rw [tokensFrom_of_name hnumeral hname, tokensFrom_of_opening hopening]
      exact Scope.carries_variableCalled hfind hhas
    · next hhas =>
      refine moves_call hs hname hopening s.candidate _ fun result hcarries ↦ ?_
      rw [tokensFrom_of_name hnumeral hname, tokensFrom_of_opening hopening]
      exact Scope.carries_unknownCall hfind (by simpa using hhas) hcarries
  · next hopening =>
    have hfree := (markFree_identifier name (identifier_of_takeName? hname)).2
    refine .moves (.holds (hs.holds_name hname)) (fun result hcarries ↦ ?_)
      (drop_add_of_append (takeName?_append hname).1) (count_of_not_isMark hfree).symm
    rw [tokensFrom_of_name hnumeral hname]
    exact Scope.carries_name hfind (tokensFrom_ne rfl hopening) hcarries

theorem moves_point (h : text[index]? = some '.')
    (hnumeral : takeNumeral? (text.drop index) = none) :
    Moves scope text offset index s ⟨brackets, offset, .operand before⟩
      (.error ⟨.malformedNumber, offset + index⟩) := by
  have hname : takeName? (text.drop index) = none := by
    rw [drop_of_getElem? h]
    rfl
  exact .operand_error (tokensFrom_of_tokensAt (tokensAt_of_char h hnumeral hname))
    (Token.ofChar_ne '.').2 rfl

/-- The scan goes with the check where an operand is expected. -/
theorem moves_operand {c : Char} (hs : Awaits text index s brackets before)
    (h : text[index]? = some c) (hcomma : Uncut ',' s.depth (text.drop index))
    (hequals : Uncut '=' s.depth (text.drop index)) :
    Moves scope text offset index s ⟨brackets, offset, .operand before⟩
      (operandMove scope text offset s index c) := by
  unfold operandMove
  by_cases hsign : c = '-'
  · subst hsign
    exact moves_sign hs h
  rw [if_neg hsign]
  by_cases hopening : c = '('
  · subst hopening
    exact moves_opening hs h
  rw [if_neg hopening]
  split
  · next hnumeral => exact moves_numeral hs hnumeral _
  · next hnumeral =>
    split
    · next hpoint =>
      subst hpoint
      exact moves_point h hnumeral
    · next hpoint =>
      split
      · next name _ hname =>
        rcases hfind : scope.functions.find? (String.ofList name) with _ | f
        · exact moves_free hs hnumeral hname _ hfind
        · exact moves_function hs hnumeral hname _ hfind
      · next hname => exact moves_flaw hs h hcomma hequals hnumeral hname hsign hopening hpoint

end

/-! ### Where an operator is expected -/

/-- A numeral starts with a digit or with its point. -/
theorem first_of_numeral {cs : List Char} {c : Char} (h : Numeral (c :: cs)) :
    isDigit c = true ∨ c = '.' := by
  generalize hcs : c :: cs = lexeme at h
  obtain ⟨mantissa, _⟩ := h
  cases mantissa with
  | whole digits =>
    obtain ⟨d, ds, rfl⟩ := List.exists_cons_of_ne_nil digits.1
    cases hcs
    exact .inl (digits.2 c (by simp))
  | point digits _ =>
    obtain ⟨d, ds, rfl⟩ := List.exists_cons_of_ne_nil digits.1
    cases hcs
    exact .inl (digits.2 c (by simp))
  | fraction =>
    cases hcs
    exact .inr rfl

section

variable {scope : Scope} {text : List Char} {offset index : Nat} {c : Char} {s : Scan}
  {brackets : List Bracket} {target : Bool}

/-- The scan is before an operand behind a mark between operands. -/
theorem Holds.wantsOperand (hs : Holds text index s brackets target) (h : text[index]? = some c)
    {before : Before} {allows : Bool} (hsign : before ≠ .sign)
    (htarget : allows = before.allowsTarget) (hopening : c ≠ '(')
    (hleads : c = ',' ↔ before = .opening)
    (hinside : before.allowsTarget = true → brackets ≠ []) :
    Awaits text (index + 1) (s.wantsOperand allows) brackets before := by
  refine awaits_next h ⟨hs.opened.depth_eq, hs.opened.calls_eq⟩ rfl ?_ htarget ?_ hinside
  · simp [Scan.wantsOperand, hs.signed, hsign]
  · simp [hopening, hleads]

theorem moves_binary (hs : Holds text index s brackets target) {op : Operator}
    (h : text[index]? = some op.symbol) :
    Moves scope text offset index s ⟨brackets, offset, .operator target⟩
      (.ok (.one index (s.wantsOperand false))) := by
  have hnext : Awaits text (index + 1) (s.wantsOperand false) brackets .operator :=
    hs.wantsOperand h (by simp) rfl (by cases op <;> decide) (by cases op <;> decide)
      (by simp [Before.allowsTarget])
  exact .operator h (tokensFrom_of_tokensAt (tokensAt_of_operator h)) rfl (.awaits hnext)
    (by cases op <;> rfl)

theorem moves_equals (hs : Holds text index s brackets target) (h : text[index]? = some '=')
    (hinside : brackets ≠ []) :
    Moves scope text offset index s ⟨brackets, offset, .operator target⟩
      (if !s.candidate then .error ⟨.badTarget, offset + index⟩
      else .ok (.one index (s.wantsOperand true))) := by
  have htokens : tokensFrom text offset index =
      ⟨.equals, offset + index⟩ :: tokensFrom text offset (index + 1) :=
    tokensFrom_of_mark h fun _ ↦ rfl
  obtain ⟨bracket, brackets, rfl⟩ := List.exists_cons_of_ne_nil hinside
  rw [hs.candidate]
  cases target with
  | false => exact .operator_error htokens rfl
  | true =>
    have hnext : Awaits text (index + 1) (s.wantsOperand true) (bracket :: brackets) .equals :=
      hs.wantsOperand h (by simp) rfl (by decide) (by decide) (by simp)
    exact .operator h htokens rfl (.awaits hnext) rfl

theorem moves_comma (hs : Holds text index s brackets target) (h : text[index]? = some ',')
    (hinside : brackets ≠ []) :
    Moves scope text offset index s ⟨brackets, offset, .operator target⟩
      (if 0 < s.depth ∧ s.calls.head? ≠ some s.depth then
        .error ⟨.commaOutsideArguments, offset + index⟩
      else .ok (.one index (s.wantsOperand true))) := by
  have htokens : tokensFrom text offset index =
      ⟨.comma, offset + index⟩ :: tokensFrom text offset (index + 1) :=
    tokensFrom_of_mark h fun _ ↦ rfl
  have hpos := hs.opened.pos_iff.2 hinside
  obtain ⟨bracket, brackets, rfl⟩ := List.exists_cons_of_ne_nil hinside
  rw [hs.opened.calls_eq, hs.opened.depth_eq]
  rw [hs.opened.depth_eq] at hpos
  cases bracket with
  | group =>
    rw [if_pos ⟨hpos, head?_callDepths_group brackets⟩]
    exact .operator_error htokens rfl
  | call =>
    have hnext : Awaits text (index + 1) (s.wantsOperand true) (.call :: brackets) .opening :=
      hs.wantsOperand h (by simp) rfl (by decide) (by simp) (by simp)
    rw [if_neg (fun hcall ↦ hcall.2 rfl)]
    exact .operator h htokens rfl (.awaits hnext) rfl

theorem moves_closing (hs : Holds text index s brackets target) (h : text[index]? = some ')') :
    Moves scope text offset index s ⟨brackets, offset, .operator target⟩
      (if s.depth = 0 then .error ⟨.tooManyClosing, offset + index⟩
      else
        .ok (.one index { s with
          depth := s.depth - 1
          calls := if s.calls.head? = some s.depth then s.calls.tail else s.calls
          candidate := false })) := by
  cases brackets with
  | nil =>
    rw [if_pos (hs.opened.depth_eq_zero_iff.2 rfl)]
    exact .operator_error (tokensFrom_of_closing h) rfl
  | cons bracket brackets =>
    have hdepth := hs.opened.depth_eq
    rw [if_neg (by simp [hs.opened.depth_eq_zero_iff])]
    have hcalls : (if s.calls.head? = some s.depth then s.calls.tail else s.calls) =
        callDepths brackets := by
      rw [hs.opened.calls_eq, hdepth]
      cases bracket with
      | group => exact if_neg (head?_callDepths_group brackets)
      | call => exact if_pos rfl
    refine .operator h (tokensFrom_of_closing h) rfl
      (.holds ⟨⟨?_, hcalls⟩, hs.operand, hs.signed, rfl, by simp⟩) rfl
    simp [hdepth]

theorem moves_unexpected (h : text[index]? = some c) (hoperator : Operator.ofChar? c = none)
    (hequals : c ≠ '=') (hcomma : c ≠ ',') (hclosing : c ≠ ')') (hopening : c ≠ '(') :
    Moves scope text offset index s ⟨brackets, offset, .operator target⟩
      (if isAlphanumeric c || c == '.' || c == '_' then .error ⟨.noOperator, offset + index⟩
      else .error ⟨.illegalCharacter c, offset + index⟩) := by
  have hdrop := drop_of_getElem? h
  rcases hnumeral : takeNumeral? (text.drop index) with _ | ⟨numeral, rest⟩
  · rcases hname : takeName? (text.drop index) with _ | ⟨name, rest⟩
    · have hstray : Token.ofChar c = .stray c := by
        rw [Token.ofChar, hoperator]
        simp [hequals, hcomma, hclosing, hopening]
      have hunderscore : c ≠ '_' := by
        rintro rfl
        rw [hdrop] at hname
        cases hname
      have htokens : tokensFrom text offset index =
          ⟨.stray c, offset + index⟩ :: tokensFrom text offset (index + 1) := by
        rw [tokensFrom_of_tokensAt (tokensAt_of_char h hnumeral hname), hstray]
      rw [beq_false_of_ne hunderscore, Bool.or_false]
      split
      · next hoperand =>
        exact .operator_error htokens (by rw [Progress.operatorStep, if_pos hoperand])
      · next hoperand =>
        exact .operator_error htokens (by rw [Progress.operatorStep, if_neg hoperand])
    · have hoperand : (isAlphanumeric c || c == '.' || c == '_') = true := by
        obtain ⟨hstart, _⟩ := identifier_of_takeName? hname
        obtain rfl := first_of_append h (takeName?_append hname).1
        rw [isNameStart, Bool.or_eq_true] at hstart
        rcases hstart with halpha | hunderscore
        · simp [isAlphanumeric_of_isAlphanum, Char.isAlphanum, halpha]
        · simp [hunderscore]
      rw [if_pos hoperand]
      exact .operator_error (tokensFrom_of_name hnumeral hname) rfl
  · have hoperand : (isAlphanumeric c || c == '.' || c == '_') = true := by
      obtain ⟨happend, hne⟩ := takeNumeral?_append hnumeral
      obtain ⟨d, cs, rfl⟩ := List.exists_cons_of_ne_nil hne
      obtain rfl := first_of_append h happend
      rcases first_of_numeral (numeral_of_takeNumeral? hnumeral) with hdigit | rfl
      · simp [isAlphanumeric_of_isDigit hdigit]
      · simp
    rw [if_pos hoperand]
    exact .operator_error (tokensFrom_of_tokensAt (tokensAt_of_numeral hnumeral)) rfl

/-- The scan goes with the check where an operator is expected. -/
theorem moves_operator (hs : Holds text index s brackets target) (h : text[index]? = some c)
    (hcomma : Uncut ',' s.depth (text.drop index))
    (hequals : Uncut '=' s.depth (text.drop index)) :
    Moves scope text offset index s ⟨brackets, offset, .operator target⟩
      (operatorMove offset s index c) := by
  rw [drop_of_getElem? h] at hcomma hequals
  rw [operatorMove]
  split
  · next hoperator =>
    obtain ⟨op, hop⟩ := Option.isSome_iff_exists.1 hoperator
    obtain rfl := Operator.symbol_of_ofChar? hop
    exact moves_binary hs h
  · next hoperator =>
    by_cases heq : c = '='
    · subst heq
      exact moves_equals hs h (mt hs.opened.depth_eq_zero_iff.2 hequals.ne_zero)
    rw [if_neg heq]
    by_cases hseparator : c = ','
    · subst hseparator
      exact moves_comma hs h (mt hs.opened.depth_eq_zero_iff.2 hcomma.ne_zero)
    rw [if_neg hseparator]
    by_cases hclosing : c = ')'
    · subst hclosing
      exact moves_closing hs h
    rw [if_neg hclosing]
    by_cases hopening : c = '('
    · subst hopening
      exact .operator_error (tokensFrom_of_opening h) rfl
    rw [if_neg hopening]
    exact moves_unexpected h (by simpa using hoperator) heq hseparator hclosing hopening

/-- **One move.**  The scan comes to what the check comes to. -/
theorem moves {p : Progress} (hmatches : Matches text offset index s p)
    (h : text[index]? = some c) (hcomma : Uncut ',' s.depth (text.drop index))
    (hequals : Uncut '=' s.depth (text.drop index)) :
    Moves scope text offset index s p (move scope text offset s index c) := by
  cases hmatches with
  | awaits hs =>
    rw [move, if_pos hs.operand]
    exact moves_operand hs h hcomma hequals
  | holds hs =>
    rw [move, if_neg (by simp [hs.operand])]
    exact moves_operator hs h hcomma hequals

end

/-! ## A whole piece -/

/-- What the scan comes to from a place to the end of the piece is what the check comes to with the
tokens from there on: the same problem, or states that match at the end. -/
inductive Scanned (scope : Scope) (text : List Char) (offset index : Nat) (s : Scan)
    (p : Progress) : Option Problem → Prop
  | refused {problem : Problem}
    (carries : scope.Carries p (tokensFrom text offset index) (.error problem)) :
    Scanned scope text offset index s p (some problem)
  | ends {stop : Nat} {s' : Scan} {p' : Progress} (hmatches : Matches text offset stop s' p')
    (hstop : text.length ≤ stop)
    (carries : scope.Carries p (tokensFrom text offset index) (.ok p'))
    (depth_eq : s'.depth = count s.depth (text.drop index)) :
    Scanned scope text offset index s p (s'.atEnd (offset + text.length))

/-- **The scan goes with the check to the end of a piece**, wherever it stands and whatever state it
starts in. -/
theorem scanned {scope : Scope} {text : List Char} {offset index : Nat} {s : Scan} {p : Progress}
    (hmatches : Matches text offset index s p) (hcomma : Uncut ',' s.depth (text.drop index))
    (hequals : Uncut '=' s.depth (text.drop index)) :
    Scanned scope text offset index s p (scanFrom scope text offset s index) := by
  fun_induction scanFrom scope text offset s index generalizing p with
  | case1 s index c hc m hmove ih =>
    have hstep : Moves scope text offset index s p (move scope text offset s index c) :=
      moves hmatches hc hcomma hequals
    rw [hmove] at hstep
    cases hstep with
    | moves hnext hcarries hahead hdepth =>
      rw [hahead] at hcomma hequals
      have hrest := ih hnext (hdepth ▸ hcomma.right) (hdepth ▸ hequals.right)
      generalize scanFrom scope text offset m.scan m.next = outcome at hrest
      cases hrest with
      | refused hrefused => exact .refused (hcarries _ hrefused)
      | ends hlast hstop hends hcount =>
        refine .ends hlast hstop (hcarries _ hends) ?_
        rw [hcount, hahead, count_append, hdepth]
  | case2 s index c hc problem hmove =>
    have hstep : Moves scope text offset index s p (move scope text offset s index c) :=
      moves hmatches hc hcomma hequals
    rw [hmove] at hstep
    cases hstep with
    | refused hcarries => exact .refused hcarries
  | case3 s index hend =>
    have hstop := List.getElem?_eq_none_iff.1 hend
    have hdrop : text.drop index = [] := List.drop_eq_nil_of_le hstop
    have htokens : tokensFrom text offset index = [] := by rw [tokensFrom, hdrop, Placed.scan]
    refine .ends hmatches hstop ?_ (by rw [hdrop]; rfl)
    rw [htokens]
    exact Scope.carries_nil p

end Cuts

end Reckoner
