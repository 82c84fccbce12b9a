import Reckoner.Problem.Check
import Reckoner.Proofs.Expr.Following
import Reckoner.Proofs.Expr.Instructions

/-!
# Every text has an answer, at a place in it

Neither the structural check nor the compiler asks anything of a text before it looks at it.  What
they find wrong they report at a place of the text or at its end, and they find an end.

For the compiler this is said of the descent through the levels of precedence, whose functions could
go round in circles, look for a character behind the end of the text or for an instruction that was
not written.  They return places further on, and compile every text as `Scope.compile` does
(`Descent.descend_eq`).  For the check it is `Scope.position_of_problem?`.
-/

set_option autoImplicit false

namespace Reckoner

/-! ## The check -/

/-- A token ends in its text. -/
theorem Placed.end_of_mem_scan {position : Nat} {cs : List Char} {t : Placed}
    (h : t ∈ scan position cs) : t.position + t.token.width ≤ position + cs.length := by
  fun_induction scan position cs with
  | case1 => cases h
  | case2 position c cs ih =>
    have hlength := congrArg List.length (Token.next_append c cs)
    rw [List.length_append, ← Token.width] at hlength
    rcases List.mem_cons.1 h with rfl | hrest
    · show position + (Token.next c cs).1.width ≤ _
      omega
    · have hend := ih hrest
      omega

namespace Progress

variable {s s' : Progress} {stop position : Nat} {token : Token} {before : Before} {target : Bool}

/-- A problem at the end of a statement is reported there or where the statement starts. -/
theorem position_flawOfEnd (hs : s.start ≤ stop) (hposition : position ≤ stop) :
    (s.flawOfEnd before position).position ≤ stop := by
  cases before with
  | opening => exact hs
  | equals => exact (Nat.sub_le _ _).trans hs
  | operator | sign => exact hposition

/-- What a step of the check comes to has its place up to `stop`: that of the problem, or that at
which the statement starts. -/
def PlacedBy (stop : Nat) : Except Problem Progress → Prop
  | .ok s => s.start ≤ stop
  | .error p => p.position ≤ stop

theorem placedBy_operandStep (hs : s.start ≤ stop) (hposition : position ≤ stop)
    (before : Before) (token : Token) : PlacedBy stop (s.operandStep before token position) := by
  cases token with
  | number | name | opening => exact hs
  | operator op =>
    cases op with
    | sub =>
      simp only [operandStep]
      split
      · exact hposition
      · exact hs
    | _ => exact hposition
  | comma =>
    simp only [operandStep]
    split
    · exact position_flawOfEnd hs hposition
    · exact hposition
  | equals | closing | stray => exact hposition

theorem placedBy_equalsStep (hs : s.start ≤ stop) (hend : position + 1 ≤ stop) :
    PlacedBy stop (s.equalsStep target position) := by
  unfold equalsStep
  split
  · show (if s.outside then s.start else position) ≤ stop
    split
    · exact hs
    · exact Nat.le_of_succ_le hend
  · split
    · exact hend
    · exact hs

theorem placedBy_operatorStep (hs : s.start ≤ stop) (target : Bool)
    (hend : position + token.width ≤ stop) :
    PlacedBy stop (s.operatorStep target token position) := by
  have hposition : position ≤ stop := Nat.le_of_add_right_le hend
  cases token with
  | operator op => exact hs
  | equals => exact placedBy_equalsStep hs hend
  | comma =>
    obtain ⟨_ | ⟨bracket, brackets⟩, start, expected⟩ := s
    · exact hend
    · cases bracket with
      | group => exact hposition
      | call => exact hs
  | closing =>
    obtain ⟨_ | ⟨bracket, brackets⟩, start, expected⟩ := s
    · exact hposition
    · exact hs
  | opening | number | name | stray => exact hposition

theorem position_atEnd {p : Problem} (hs : s.start ≤ stop) (h : s.atEnd stop = some p) :
    p.position ≤ stop := by
  unfold atEnd at h
  split at h
  · cases h
    exact le_rfl
  · split at h
    · cases h
      exact position_flawOfEnd hs le_rfl
    · cases h

end Progress

namespace Scope

variable {scope : Scope}

/-- The check reports places of the text. -/
theorem position_of_problemFrom {stop : Nat} {s : Progress} {ts : List Placed} {p : Problem}
    (hs : s.start ≤ stop) (hts : ∀ t ∈ ts, t.position + t.token.width ≤ stop)
    (h : scope.problemFrom stop s ts = some p) : p.position ≤ stop := by
  fun_induction problemFrom scope stop s ts with
  | case1 s => exact s.position_atEnd hs h
  | case2 s position before text _ f opening closing rest =>
    cases h
    exact Nat.le_of_add_right_le (hts ⟨.closing, closing⟩ (by simp))
  | case3 s position before text _ f opening closing rest _ _ ih =>
    exact ih hs (fun t ht ↦ hts t (by simp [ht])) h
  | case4 s position before text _ f opening rest _ _ ih =>
    exact ih hs (fun t ht ↦ hts t (by simp [ht])) h
  | case5 s position rest before text =>
    cases h
    have hend := hts ⟨.name text, position⟩ List.mem_cons_self
    rwa [Token.width, Token.chars, String.length_toList] at hend
  | case6 s position before text _ opening rest =>
    cases h
    exact Nat.le_of_add_right_le (hts ⟨.opening, opening⟩ (by simp))
  | case7 s position before text _ opening rest _ _ ih =>
    exact ih hs (fun t ht ↦ hts t (by simp [ht])) h
  | case8 s position before text _ rest _ _ ih =>
    exact ih hs (fun t ht ↦ hts t (by simp [ht])) h
  | case9 s position rest before token _ _ s' hstep ih =>
    have hend := hts ⟨token, position⟩ List.mem_cons_self
    have hplaced := s.placedBy_operandStep hs (Nat.le_of_add_right_le hend) before token
    rw [hstep] at hplaced
    exact ih hplaced (fun t ht ↦ hts t (List.mem_cons_of_mem _ ht)) h
  | case10 s position rest before token _ _ problem hstep =>
    cases h
    have hend := hts ⟨token, position⟩ List.mem_cons_self
    have hplaced := s.placedBy_operandStep hs (Nat.le_of_add_right_le hend) before token
    rwa [hstep] at hplaced
  | case11 s position rest target token _ s' hstep ih =>
    have hplaced := s.placedBy_operatorStep hs target (hts ⟨token, position⟩ List.mem_cons_self)
    rw [hstep] at hplaced
    exact ih hplaced (fun t ht ↦ hts t (List.mem_cons_of_mem _ ht)) h
  | case12 s position rest target token _ problem hstep =>
    cases h
    have hplaced := s.placedBy_operatorStep hs target (hts ⟨token, position⟩ List.mem_cons_self)
    rwa [hstep] at hplaced

/-- **A problem has a place in the text.** -/
theorem position_of_problem? {text : String} {p : Problem} (h : scope.problem? text = some p) :
    p.position ≤ text.length := by
  rw [problem?] at h
  split at h
  · cases h
    exact Nat.zero_le _
  · split at h
    · refine position_of_problemFrom (Nat.zero_le _) (fun t ht ↦ ?_) h
      have hend := Placed.end_of_mem_scan ht
      rwa [Nat.zero_add, String.length_toList] at hend
    · cases h
      exact Nat.sub_le _ _

end Scope

/-! ## The compiler -/

namespace Descent

variable {scope : Scope}

/-- **The descent compiles a text as the reader does**, or refuses it as the reader does, at a place
of the text. -/
theorem descend_eq (scope : Scope) (text : String) :
    (∃ p, descend scope text = .ok p ∧ scope.compile text = .ok p) ∨
      ∃ error, descend scope text = .error (.refused error) ∧ scope.compile text = .error error ∧
        error.position ≤ text.length := by
  have hread : scope.read text = scope.readAt text.toList (Frame.awaits ⟨[], [], []⟩ false) 0 := by
    rw [Scope.readAt, String.length_toList]
    rfl
  have hfollows : FollowsAll scope text.toList true 1 .nothing _
      (statements scope text.toList true 1 .nothing 0) :=
    follows_statements true 1 .nothing 0 (Nat.zero_le _)
  rw [descend]
  generalize statements scope text.toList true 1 .nothing 0 = result at hfollows
  cases hfollows with
  | @refused error hle hrefuses =>
    have hrefused := hread.trans (hrefuses ⟨[], [], []⟩ ⟨rfl, rfl⟩)
    rw [String.length_toList] at hle
    exact .inr ⟨error, rfl, by rw [Scope.compile, hrefused]; rfl, hle⟩
  | @advance a s hholds hgoesOn =>
    obtain ⟨hlisted, hcomma⟩ := hholds
    have hgoes := hread.trans (hgoesOn ⟨[], [], []⟩ ⟨rfl, rfl⟩)
    rw [Frame.separatesAll_outside, List.nil_append] at hgoes
    rw [ok_bind]
    by_cases hstop : a.stop = text.length
    · rw [hstop, ← String.length_toList, Scope.readAt_holds_end rfl rfl] at hgoes
      have hemitted : a.emitted = Emitted.nothing.emitAll s.code := hlisted.emitted_eq
      have hbalanced := (Scope.written_of_read hgoes).balanced
      -- The counters are those of the code, and the code is as deep as the tree is high.
      have hcode : a.emitted.code = s.code := by
        rw [hemitted, Emitted.code_emitAll]
        exact List.nil_append _
      have hdepth : a.emitted.depth = 1 := by
        rw [hemitted, Emitted.depth_emitAll, hbalanced.effect]
        rfl
      have hdeepest : a.emitted.deepest = s.height := by
        rw [hemitted, Emitted.deepest_emitAll _ le_rfl, hbalanced.peak]
        simp [Emitted.nothing]
      refine .inl ⟨s.program text, ?_, by rw [Scope.compile, hgoes]; rfl⟩
      rw [if_pos hstop, if_pos hdepth, hcode, hdeepest, Int.toNat_natCast]
      rfl
    · have hlt : a.stop < text.toList.length :=
        Nat.lt_of_le_of_ne a.le (String.length_toList ▸ hstop)
      have hend := List.getElem?_eq_getElem hlt
      rw [Scope.readAt_outside hlisted.ends.ne_operator (hlisted.ends.equals rfl) hcomma hend rfl]
        at hgoes
      refine .inr ⟨_, ?_, by rw [Scope.compile, hgoes]; rfl, String.length_toList ▸ a.le⟩
      rw [if_neg hstop, hend]

end Descent

/-- **Every text has an answer, at a place in it**, whether it was checked or not.  What a function
of the descent returns is further on than where it started, and in the text or at its end.  So the
descent ends: with the program of the text, or with a refusal at a place of the text, and not
because a character or an instruction is missing.  The structural check accepts the text or reports
a place of it. -/
theorem Scope.answer_located (scope : Scope) (text : String) :
    (∀ sequence depth emitted index a,
      Descent.statements scope text.toList sequence depth emitted index = .ok a →
        index < a.stop ∧ a.stop ≤ text.length) ∧
    (∀ level depth emitted index a,
      Descent.term scope text.toList level depth emitted index = .ok a →
        index < a.stop ∧ a.stop ≤ text.length) ∧
    (∀ f depth emitted start index a,
      Descent.call scope text.toList f depth emitted start index = .ok a →
        index < a.stop ∧ a.stop ≤ text.length) ∧
    ((∃ p, Descent.descend scope text = .ok p ∧ scope.compile text = .ok p) ∨
      ∃ error, Descent.descend scope text = .error (.refused error) ∧
        scope.compile text = .error error ∧ error.position ≤ text.length) ∧
    (scope.problem? text = none ∨
      ∃ p, scope.problem? text = some p ∧ p.position ≤ text.length) := by
  have hplace {index : Nat} (a : Advance text.toList index) :
      index < a.stop ∧ a.stop ≤ text.length := ⟨a.lt, String.length_toList ▸ a.le⟩
  refine ⟨fun _ _ _ _ a _ ↦ hplace a, fun _ _ _ _ a _ ↦ hplace a, fun _ _ _ _ _ a _ ↦ hplace a,
    Descent.descend_eq scope text, ?_⟩
  cases hproblem : scope.problem? text with
  | none => exact .inl rfl
  | some p => exact .inr ⟨p, rfl, position_of_problem? hproblem⟩

end Reckoner
