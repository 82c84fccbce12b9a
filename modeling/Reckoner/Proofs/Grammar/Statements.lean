import Reckoner.Proofs.Grammar.Scanning

/-!
# The check in pieces is the check

A text that is cut at its commas and equals signs, and checked piece by piece, has the same first
problem as one that is checked token by token.  The reason is the same for each kind of cut.  The
tokens of a text with a mark in it are those before the mark, the mark, and those behind it; a piece
either has a problem, which is then one of the whole text, or leaves the check in a state; and at a
place where a text is cut no bracket is open, so that the state says how the check takes the mark.

* `Cuts.settled_scan` is a piece with no cut in it.
* `Cuts.settled_assignment` is a statement, by recursion over the assigned values.
* `Cuts.check_eq` is the whole text, by induction on the commas.
-/

set_option autoImplicit false

namespace Reckoner

open Decimal

namespace Cuts

/-! ## What a piece comes to -/

/-- What checking a piece by itself comes to is what the check of the whole text comes to with its
tokens: the same problem, or a state that has this problem, or none, if the text ends there. -/
inductive Settled (scope : Scope) (text : List Char) (offset : Nat) (p : Progress) :
    Option Problem → Prop
  | refused {problem : Problem}
    (carries : scope.Carries p (tokensFrom text offset 0) (.error problem)) :
    Settled scope text offset p (some problem)
  | ends {p' : Progress} (carries : scope.Carries p (tokensFrom text offset 0) (.ok p'))
    (open_eq : (p'.brackets.length : Int) = count 0 text) :
    Settled scope text offset p (p'.atEnd (offset + text.length))

/-- A state in which the check comes out of a piece, and what is wrong if the text ends there. -/
inductive EndsIn (text : List Char) (offset : Nat) : Progress → Option Problem → Prop
  | inside {brackets : List Bracket} {expected : Expected} (hinside : brackets ≠ []) :
    EndsIn text offset ⟨brackets, offset, expected⟩
      (some ⟨.unmatchedOpening, offset + text.length⟩)
  | operand {before : Before} (allows : before.allowsTarget = false) :
    EndsIn text offset ⟨[], offset, .operand before⟩ (some ⟨.operatorEnds, offset + text.length⟩)
  | operator {target : Bool} (named : target = true → takeName? text = some (text, [])) :
    EndsIn text offset ⟨[], offset, .operator target⟩ none

section

variable {scope : Scope} {text before behind : List Char} {offset stop : Nat} {s : Scan}
  {p p' : Progress} {first : Before} {outcome : Option Problem}

theorem Matches.endsIn (h : Matches text offset stop s p) (hstop : text.length ≤ stop)
    (hne : text ≠ []) : EndsIn text offset p (s.atEnd (offset + text.length)) := by
  rw [Scan.atEnd]
  cases h with
  | @awaits brackets before h =>
    by_cases hnone : brackets = []
    · subst hnone
      rw [if_neg (by simp [h.opened.depth_eq]), if_pos h.operand]
      refine .operand ?_
      by_contra hallows
      have hstart := h.first rfl (by simpa using hallows)
      have hpos := List.length_pos_iff.2 hne
      omega
    · rw [if_pos (h.opened.pos_iff.2 hnone)]
      exact .inside hnone
  | @holds brackets target h =>
    by_cases hnone : brackets = []
    · subst hnone
      rw [if_neg (by simp [h.opened.depth_eq]), if_neg (by simp [h.operand])]
      have hnamed := h.named rfl
      rw [List.take_of_length_le hstop] at hnamed
      exact .operator hnamed
    · rw [if_pos (h.opened.pos_iff.2 hnone)]
      exact .inside hnone

/-- If the text ends there, the check says the same. -/
theorem EndsIn.atEnd (h : EndsIn text offset p outcome) :
    p.atEnd (offset + text.length) = outcome := by
  cases h with
  | inside hinside => simp [Progress.atEnd, Progress.outside, hinside]
  | @operand before hallows =>
    cases before with
    | opening | equals => cases hallows
    | operator | sign => rfl
  | operator => rfl

theorem Matches.length_eq (h : Matches text offset stop s p) :
    (p.brackets.length : Int) = s.depth := by
  cases h with
  | awaits h => exact h.opened.depth_eq.symm
  | holds h => exact h.opened.depth_eq.symm

/-- The scan of a piece starts where the check of a statement does. -/
theorem matches_initial (hfirst : first.allowsTarget = true) :
    Matches text offset 0 .initial ⟨[], offset, .operand first⟩ := by
  refine .awaits ⟨⟨rfl, rfl⟩, rfl, ?_, hfirst.symm, ?_, fun _ _ ↦ rfl⟩
  · cases first <;> simp_all [Scan.initial, Before.allowsTarget]
  · cases first <;> simp_all [leads, Before.allowsTarget]

/-- What the scan of a piece comes to. -/
theorem scanned_piece (hfirst : first.allowsTarget = true) (hne : text ≠ [])
    (hcomma : Uncut ',' 0 text) (hequals : Uncut '=' 0 text)
    (houtcome : scanFrom scope text offset .initial 0 = outcome) :
    (∃ problem, outcome = some problem ∧
      scope.Carries ⟨[], offset, .operand first⟩ (tokensFrom text offset 0) (.error problem)) ∨
    ∃ p, EndsIn text offset p outcome ∧ (p.brackets.length : Int) = count 0 text ∧
      scope.Carries ⟨[], offset, .operand first⟩ (tokensFrom text offset 0) (.ok p) := by
  have hscanned : Scanned scope text offset 0 .initial ⟨[], offset, .operand first⟩
      (scanFrom scope text offset .initial 0) := scanned (matches_initial hfirst) hcomma hequals
  rw [houtcome] at hscanned
  cases hscanned with
  | refused hcarries => exact .inl ⟨_, rfl, hcarries⟩
  | ends hmatches hstop hcarries hdepth =>
    exact .inr ⟨_, hmatches.endsIn hstop hne, hmatches.length_eq.trans hdepth, hcarries⟩

/-! ## Statements -/

/-- The tokens of a piece with a mark in it. -/
theorem tokensFrom_append_mark {mark : Char} {token : Token} (hmark : IsMark mark)
    (htoken : Token.ofChar mark = token) (before behind : List Char) (offset : Nat) :
    tokensFrom (before ++ mark :: behind) offset 0 =
      tokensFrom before offset 0 ++ ⟨token, offset + before.length⟩ ::
        tokensFrom behind (offset + before.length + 1) 0 :=
  htoken ▸ Placed.scan_append_mark hmark offset before behind

theorem tokensFrom_nil (offset : Nat) : tokensFrom [] offset 0 = [] := by
  rw [tokensFrom, List.drop_nil, Placed.scan]

/-- An empty piece leaves the check where it is. -/
theorem settled_nil (scope : Scope) (houtside : p.brackets = []) :
    Settled scope [] offset p (p.atEnd offset) := by
  refine .ends ?_ (by rw [houtside]; rfl)
  rw [tokensFrom_nil]
  exact Scope.carries_nil p

/-- A name is one token. -/
theorem tokensFrom_of_takeName? (h : takeName? text = some (text, [])) :
    tokensFrom text offset 0 = [⟨.name (String.ofList text), offset⟩] := by
  have hnumeral : takeNumeral? (text.drop 0) = none := by
    obtain ⟨hstart, _⟩ := identifier_of_takeName? h
    exact takeNumeral?_of_isNameStart hstart _
  rw [tokensFrom_of_name hnumeral h, tokensFrom, Nat.zero_add, List.drop_length, Placed.scan]
  rfl

/-- Where a target should end, the equals sign has what is wrong if the text ended there. -/
theorem EndsIn.equals_error {problem : Problem} (h : EndsIn text offset p (some problem))
    (houtside : p.brackets = []) (us : List Placed) :
    scope.Carries p (⟨.equals, offset + text.length⟩ :: us) (.error problem) := by
  cases h with
  | inside hinside => exact absurd houtside hinside
  | operand hallows =>
    refine Scope.carries_operand_error (by simp) ?_
    simp [Progress.operandStep, Progress.flawOfEquals, Progress.outside, hallows]

/-- What does not end as a name does cannot be assigned to. -/
theorem EndsIn.badTarget (h : EndsIn text offset p none)
    (hname : takeName? text ≠ some (text, [])) (us : List Placed) :
    scope.Carries p (⟨.equals, offset + text.length⟩ :: us) (.error ⟨.badTarget, offset⟩) := by
  cases h with
  | @operator target named =>
    cases target with
    | false => exact Scope.carries_operator_error rfl
    | true => exact absurd (named rfl) hname

section

variable {problem : Problem} (hfirst : first.allowsTarget = true) (hcomma : Uncut ',' 0 before)
  (hequals : Uncut '=' 0 before)
include hfirst hcomma hequals

/-- What is wrong with a target is found at the equals sign or before. -/
theorem refused_target (hzero : count 0 before = 0)
    (h : target scope before offset = some problem) (us : List Placed) :
    scope.Carries ⟨[], offset, .operand first⟩
      (tokensFrom before offset 0 ++ ⟨.equals, offset + before.length⟩ :: us)
      (.error problem) := by
  have hbracket : Unbracketed (⟨.equals, offset + before.length⟩ :: us) :=
    unbracketed_cons (by simp) (by simp)
  unfold target at h
  split at h
  · next hempty =>
    cases h
    subst hempty
    rw [tokensFrom_nil]
    refine Scope.carries_operand_error (by simp) ?_
    simp [Progress.operandStep, Progress.flawOfEquals, Progress.outside, hfirst]
  · next hne =>
    split at h
    · next hscan =>
      cases h
      rcases scanned_piece hfirst hne hcomma hequals hscan with
        ⟨_, hproblem, hcarries⟩ | ⟨p, hends, hopen, hcarries⟩
      · cases hproblem
        exact hcarries.append_error hbracket
      · rw [hzero, Int.natCast_eq_zero, List.length_eq_zero_iff] at hopen
        exact hcarries.append hbracket (hends.equals_error hopen us)
    · next hscan =>
      split at h
      · cases h
      · next hname =>
        cases h
        rcases scanned_piece hfirst hne hcomma hequals hscan with
          ⟨_, hproblem, _⟩ | ⟨p, hends, _, hcarries⟩
        · cases hproblem
        · exact hcarries.append hbracket (hends.badTarget hname us)

/-- A target with nothing wrong is a name that may be assigned to. -/
theorem carries_target (h : target scope before offset = none) :
    scope.Carries ⟨[], offset, .operand first⟩ (tokensFrom before offset 0)
      (.ok ⟨[], offset, .operator true⟩) := by
  unfold target at h
  split at h
  · cases h
  · next hne =>
    split at h
    · cases h
    · next hscan =>
      split at h
      · next hname =>
        rcases scanned_piece hfirst hne hcomma hequals hscan with
          ⟨_, hproblem, _⟩ | ⟨p, hends, _, hcarries⟩
        · cases hproblem
        · have hnone : scope.problemFrom 0 ⟨[], offset, .operand first⟩
              (tokensFrom before offset 0) = none := by
            rw [hcarries.problemFrom_eq]
            cases hends
            rfl
          rw [tokensFrom_of_takeName? hname] at hnone ⊢
          rcases hfind : scope.functions.find? (String.ofList before) with _ | f
          · refine Scope.carries_name hfind (by simp) ?_
            rw [hfirst]
            exact Scope.carries_nil _
          · rw [(Scope.carries_noBracket hfind (by simp)).problemFrom_eq] at hnone
            cases hnone
      · cases h

/-- Behind the equals sign of a target with nothing wrong stands a value. -/
theorem carries_value (h : target scope before offset = none) {us : List Placed}
    {result : Except Problem Progress}
    (hus : scope.Carries ⟨[], offset + before.length + 1, .operand .equals⟩ us result) :
    scope.Carries ⟨[], offset, .operand first⟩
      (tokensFrom before offset 0 ++ ⟨.equals, offset + before.length⟩ :: us) result :=
  (carries_target hfirst hcomma hequals h).append (unbracketed_cons (by simp) (by simp))
    (Scope.carries_operator rfl hus)

/-- An assignment comes to what its value comes to. -/
theorem Settled.assignment (h : target scope before offset = none) (hzero : count 0 before = 0)
    (hs : Settled scope behind (offset + before.length + 1)
      ⟨[], offset + before.length + 1, .operand .equals⟩ outcome) :
    Settled scope (before ++ '=' :: behind) offset ⟨[], offset, .operand first⟩ outcome := by
  have htokens := tokensFrom_append_mark (.inr (.inl rfl)) rfl before behind offset
  cases hs with
  | refused hcarries =>
    refine .refused ?_
    rw [htokens]
    exact carries_value hfirst hcomma hequals h hcarries
  | ends hcarries hopen =>
    have hstop : offset + before.length + 1 + behind.length =
        offset + (before ++ '=' :: behind).length := by
      rw [List.length_append, List.length_cons]
      omega
    rw [hstop]
    refine .ends ?_ ?_
    · rw [htokens]
      exact carries_value hfirst hcomma hequals h hcarries
    · rw [hopen, count_append, hzero]
      rfl

end

/-- **A statement.**  By recursion over the assigned values: a value is checked as a statement is,
and the check is before it as it is before a statement, except for what it says if the value is
missing. -/
theorem settled_assignment (hfirst : first.allowsTarget = true) (hne : text ≠ [])
    (hcomma : Uncut ',' 0 text) :
    Settled scope text offset ⟨[], offset, .operand first⟩ (assignment scope text offset) := by
  fun_induction assignment scope text offset generalizing first with
  | case1 text offset hplaces =>
    have hequals : Uncut '=' 0 text :=
      uncut_of_places (by decide) (by decide) (List.head?_eq_none_iff.1 hplaces)
    rcases scanned_piece hfirst hne hcomma hequals rfl with
      ⟨problem, houtcome, hcarries⟩ | ⟨p, hends, hopen, hcarries⟩
    · rw [houtcome]
      exact .refused hcarries
    · rw [← hends.atEnd]
      exact .ends hcarries hopen
  | case2 text offset place hplaces problem htarget =>
    obtain ⟨before, behind, rfl, rfl, hzero, hequals⟩ :=
      exists_of_head?_places (by decide) (by decide) hplaces
    rw [List.take_left] at htarget
    refine .refused ?_
    rw [tokensFrom_append_mark (.inr (.inl rfl)) rfl]
    exact refused_target hfirst hcomma.left hequals hzero htarget _
  | case3 text offset place hplaces htarget hvalue =>
    obtain ⟨before, behind, rfl, rfl, hzero, hequals⟩ :=
      exists_of_head?_places (by decide) (by decide) hplaces
    have hbehind : behind = [] := by
      rw [List.length_append, List.length_cons] at hvalue
      exact List.length_eq_zero_iff.1 (by omega)
    subst hbehind
    rw [List.take_left] at htarget
    exact .assignment hfirst hcomma.left hequals htarget hzero (settled_nil scope rfl)
  | case4 text offset place hplaces htarget hvalue ih =>
    obtain ⟨before, behind, rfl, rfl, hzero, hequals⟩ :=
      exists_of_head?_places (by decide) (by decide) hplaces
    have hdrop : (before ++ '=' :: behind).drop (before.length + 1) = behind := by simp
    have hbehind : behind ≠ [] := by
      rintro rfl
      exact hvalue (by simp)
    have hcut : Uncut ',' 0 (['='] ++ behind) := hzero ▸ hcomma.right
    rw [List.take_left] at htarget
    rw [hdrop] at ih ⊢
    exact .assignment hfirst hcomma.left hequals htarget hzero (ih rfl hbehind hcut.right)

/-! ## Pieces between commas -/

/-- Outside all brackets a comma has what is wrong with the statement if the text ended there, or
else starts another statement. -/
theorem problemFrom_comma (scope : Scope) (stop position : Nat) (us : List Placed)
    (houtside : p.brackets = []) :
    scope.problemFrom stop p (⟨.comma, position⟩ :: us) =
      (p.atEnd position).or
        (scope.problemFrom stop ⟨[], position + 1, .operand .opening⟩ us) := by
  obtain ⟨brackets, start, expected⟩ := p
  obtain rfl : brackets = [] := houtside
  cases expected with
  | operand first => rw [Scope.problemFrom_operand (by simp)]; rfl
  | operator target => rfl

section

variable (hcomma : Uncut ',' 0 text)
include hcomma

theorem settled_statement (scope : Scope) (offset : Nat) :
    Settled scope text offset ⟨[], offset, .operand .opening⟩ (statement scope text offset) := by
  rw [statement]
  split
  · next hempty =>
    subst hempty
    exact settled_nil scope rfl
  · next hne => exact settled_assignment rfl hne hcomma

/-- The last statement of a text. -/
theorem statement_eq (scope : Scope) (offset : Nat) :
    statement scope text offset =
      scope.problemFrom (offset + text.length) ⟨[], offset, .operand .opening⟩
        (tokensFrom text offset 0) := by
  have hsettled := settled_statement hcomma scope offset
  generalize statement scope text offset = outcome at hsettled
  cases hsettled with
  | refused hcarries => exact (hcarries.problemFrom_eq _).symm
  | ends hcarries => exact (hcarries.problemFrom_eq _).symm

/-- A statement before a comma. -/
theorem problemFrom_statement (scope : Scope) (stop offset : Nat) (us : List Placed)
    (hzero : count 0 text = 0) :
    scope.problemFrom stop ⟨[], offset, .operand .opening⟩
        (tokensFrom text offset 0 ++ ⟨.comma, offset + text.length⟩ :: us) =
      (statement scope text offset).or
        (scope.problemFrom stop ⟨[], offset + text.length + 1, .operand .opening⟩ us) := by
  have hbracket : Unbracketed (⟨.comma, offset + text.length⟩ :: us) :=
    unbracketed_cons (by simp) (by simp)
  have hsettled := settled_statement hcomma scope offset
  generalize statement scope text offset = outcome at hsettled
  cases hsettled with
  | refused hcarries => exact hcarries stop _ hbracket
  | ends hcarries hopen =>
    rw [hzero, Int.natCast_eq_zero, List.length_eq_zero_iff] at hopen
    rw [hcarries stop _ hbracket]
    exact problemFrom_comma scope stop _ us hopen

end

/-- **The pieces between commas.**  By induction on the commas: the check comes out of a statement
as it came into it, at the place behind the comma. -/
theorem findSome?_pieces (scope : Scope) (text : List Char) {start : Nat} {rest : List Char}
    (hrest : text.drop start = rest) (hstart : start ≤ text.length) {cuts : List Nat}
    (hcuts : places ',' 0 start rest = cuts) :
    (pieces text start cuts).findSome? (fun piece ↦ statement scope piece.1 piece.2) =
      scope.problemFrom text.length ⟨[], start, .operand .opening⟩ (tokensFrom rest start 0) := by
  have hlength := congrArg List.length hrest
  rw [List.length_drop] at hlength
  induction cuts generalizing start rest with
  | nil =>
    have hcomma : Uncut ',' 0 rest := uncut_of_places (by decide) (by decide) hcuts
    have hstop : start + rest.length = text.length := by omega
    rw [pieces, List.findSome?_singleton, hrest, statement_eq hcomma, hstop]
  | cons place cuts ih =>
    obtain ⟨before, behind, rfl, rfl, hzero, hcomma, hbehind⟩ :=
      exists_of_places (by decide) (by decide) hcuts
    have hdrop : text.drop (start + before.length + 1) = behind := by
      rw [Nat.add_assoc, ← List.drop_drop, hrest]
      simp
    have htokens : tokensFrom (before ++ ',' :: behind) start 0 =
        tokensFrom before start 0 ++ ⟨.comma, start + before.length⟩ ::
          tokensFrom behind (start + before.length + 1) 0 :=
      tokensFrom_append_mark (.inl rfl) rfl before behind start
    rw [List.length_append, List.length_cons] at hlength
    rw [pieces, List.findSome?_cons, hrest, Nat.add_sub_cancel_left, List.take_left, htokens,
      problemFrom_statement hcomma scope _ _ _ hzero,
      ih hdrop (by omega) hbehind.symm (by rw [← hdrop, List.length_drop])]
    cases statement scope before start <;> rfl

/-! ## Texts -/

/-- **A text that is checked in pieces has the same first problem.** -/
theorem check_eq (scope : Scope) (text : String) : check scope text = scope.problem? text := by
  rw [check, Scope.problem?]
  cases text.toList.getLast? with
  | none => rfl
  | some last =>
    have hpieces := findSome?_pieces scope text.toList List.drop_zero (Nat.zero_le _) rfl
    rw [String.length_toList] at hpieces
    dsimp only
    rw [hpieces]
    rfl

end

end Cuts

end Reckoner
