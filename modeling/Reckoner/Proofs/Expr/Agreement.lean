import Reckoner.Proofs.Environment.Keys
import Reckoner.Proofs.Expr.Origin
import Reckoner.Proofs.Expr.Reader

/-!
# The check and the reader agree

A text without a structural problem can be refused for three reasons only, and it is refused if one
of them is there (`compile_of_accepted`):

* one of its names stands for nothing;
* one of its calls has not as many arguments as its function takes;
* one of its operands nests too deeply.

`Scope.Suits` says of a term that none of the reasons is there, and `Scope.Refuses` which cause each
of them has.  Both are shown for `Scope.resolve`, to which the reader comes down on such a text.
-/

set_option autoImplicit false

namespace Reckoner

namespace Scope

/-- A name is that of a function or of a variable. -/
def Known (scope : Scope) (text : String) : Prop :=
  (scope.functions.find? text).isSome ∨ scope.variables.has text = true

/-- The names of a term can be looked up at a depth. -/
structure Suits (scope : Scope) (depth : Nat) (t : Term) : Prop where
  /-- Names that stand alone are variables, and calls are calls of functions as these ask. -/
  names : t.Names (fun text ↦ scope.variables.has text = true) fun text got ↦
    ∃ f, scope.functions.find? text = some f ∧ got = f.arity
  /-- No operand is too deep. -/
  shallow : (depth : Int) + t.depth ≤ scope.limit + 1

/-- What is wrong with names and calls where operands nest as deeply as `deepest`. -/
inductive Refuses (scope : Scope) (bare : List String) (calls : List (String × Nat))
    (deepest : Nat) : CompileCause → Prop
  | unknownName {text : String} (mem : text ∈ bare ∨ ∃ got, (text, got) ∈ calls)
    (unknown : ¬ scope.Known text) :
    Refuses scope bare calls deepest (.unknownName text (scope.similar text))
  | wrongArity {text : String} {got : Nat} {f : Function} (mem : (text, got) ∈ calls)
    (function : scope.functions.find? text = some f) (wrong : got ≠ f.arity) :
    Refuses scope bare calls deepest (.wrongArity f.name f.arity got)
  | tooDeep (deep : scope.limit < deepest) :
    Refuses scope bare calls deepest (.tooDeep scope.limit)

/-- What is wrong with a part is wrong with the whole. -/
theorem Refuses.mono {scope : Scope} {bare bare' : List String} {calls calls' : List (String × Nat)}
    {deepest deepest' : Nat} {cause : CompileCause} (h : scope.Refuses bare calls deepest cause)
    (hbare : bare ⊆ bare') (hcalls : calls ⊆ calls') (hdeepest : deepest ≤ deepest') :
    scope.Refuses bare' calls' deepest' cause := by
  cases h with
  | unknownName hmem hunknown =>
    refine .unknownName ?_ hunknown
    rcases hmem with hmem | ⟨got, hmem⟩
    · exact .inl (hbare hmem)
    · exact .inr ⟨got, hcalls hmem⟩
  | wrongArity hmem hfunction hwrong => exact .wrongArity (hcalls hmem) hfunction hwrong
  | tooDeep hdeep => exact .tooDeep (by omega)

variable {scope : Scope}

/-! ## Lookups that fail -/

theorem checkDepth_error {depth position : Nat} {e : CompileError}
    (h : scope.checkDepth depth position = .error e) :
    scope.limit < depth ∧ e.cause = .tooDeep scope.limit := by
  rw [checkDepth] at h
  split at h
  · next hlt =>
    cases h
    exact ⟨hlt, rfl⟩
  · cases h

theorem refer_error {text : String} {position : Nat} {e : CompileError}
    (hfree : scope.functions.find? text = none) (h : scope.refer text position = .error e) :
    ¬ scope.Known text ∧ e.cause = .unknownName text (scope.similar text) := by
  rw [refer, meaning, hfree] at h
  cases hvariable : scope.variables.find? text with
  | some v => simp [hvariable] at h
  | none =>
    simp only [hvariable] at h
    cases h
    exact ⟨by simp [Known, hfree, Environment.has, hvariable], rfl⟩

theorem callee_error {text : String} {position : Nat} {e : CompileError}
    (hcallable : scope.Callable text) (h : scope.callee text position = .error e) :
    ¬ scope.Known text ∧ e.cause = .unknownName text (scope.similar text) := by
  rw [callee] at h
  cases hfunction : scope.functions.find? text with
  | some f => simp [meaning, hfunction] at h
  | none =>
    rcases hcallable with hsome | hhas
    · simp [hfunction] at hsome
    · refine ⟨by simp [Known, hfunction, hhas], ?_⟩
      split at h <;> cases h <;> rfl

theorem closeBracket_call_error {f : Function} {position : Nat} {es : List Expr} {e : CompileError}
    (h : Reading.closeBracket (.call f position) es = .error e) :
    es.length ≠ f.arity ∧ e.cause = .wrongArity f.name f.arity es.length := by
  rw [Reading.closeBracket] at h
  split at h
  · cases h
  · next harity =>
    cases h
    exact ⟨harity, rfl⟩

/-! ## Terms -/

/-- **A lookup that succeeds shows that the term suits.** -/
theorem Resolves.suits {depth : Nat} {t : Term} {e : Expr} (h : scope.Resolves depth t e) :
    scope.Suits depth t := by
  induction h with
  | number shallow => exact ⟨Term.names_number, by simpa [Term.depth] using shallow⟩
  | name shallow defined =>
    have hhas := Environment.has_of_find? defined
    exact ⟨Term.names_name.2 hhas, by simpa [Term.depth] using shallow⟩
  | @call depth text position f ts es arguments shallow function terms exprs all arity ih =>
    subst terms
    refine ⟨Term.names_call.2 ⟨⟨f, function, by rw [List.length_map, arity]⟩, ?_⟩, ?_⟩
    · exact List.forall_mem_map.2 fun a ha ↦ (ih a ha).names
    · have hdepth : Term.depthOfAll (arguments.map Prod.fst) ≤ (scope.limit - depth).toNat :=
        Term.depthOfAll_le.2 <| List.forall_mem_map.2 fun a ha ↦ by
          have hshallow := (ih a ha).shallow
          omega
      rw [Term.depth]
      omega
  | group _ ih =>
    have hshallow := ih.shallow
    refine ⟨Term.names_group.2 ih.names, ?_⟩
    rw [Term.depth]
    omega
  | negate _ ih => exact ⟨Term.names_negate.2 ih.names, ih.shallow⟩
  | @binary depth op position l r left right _ _ ihl ihr =>
    have hshallowl := ihl.shallow
    have hshallowr := ihr.shallow
    refine ⟨Term.names_binary.2 ⟨ihl.names, ihr.names⟩, ?_⟩
    rw [Term.depth]
    by_cases hpow : op = .pow
    · rw [if_pos hpow] at hshallowr ⊢
      omega
    · rw [if_neg hpow] at hshallowr ⊢
      omega
  | assign defined _ ih =>
    exact ⟨Term.names_assign.2 ⟨Environment.has_of_find? defined, ih.names⟩, ih.shallow⟩

theorem Refuses.of_resolveAll {depth deepest : Nat} {ts : List Term} {e : CompileError}
    (ih : ∀ t ∈ ts, ∀ {e : CompileError}, scope.resolve depth t = .error e →
      scope.Refuses t.bare t.calls deepest e.cause)
    (h : scope.resolveAll depth ts = .error e) :
    scope.Refuses (Term.bareOfAll ts) (Term.callsOfAll ts) deepest e.cause := by
  induction ts with
  | nil => cases h
  | cons t ts ihts =>
    obtain ⟨iht, ih⟩ := List.forall_mem_cons.1 ih
    rw [resolveAll] at h
    rcases bind_eq_error.1 h with h | ⟨e', _, h⟩
    · exact (iht h).mono (List.subset_append_left ..) (List.subset_append_left ..) le_rfl
    · rcases bind_eq_error.1 h with h | ⟨es, _, h⟩
      · exact (ihts ih h).mono (List.subset_append_right ..) (List.subset_append_right ..) le_rfl
      · cases h

theorem Refuses.of_checkDepth {t : Term} {depth deepest position : Nat} {e : CompileError}
    (hdepth : depth + t.depth ≤ deepest + 1) (h : scope.checkDepth depth position = .error e) :
    scope.Refuses t.bare t.calls deepest e.cause := by
  obtain ⟨hlt, hcause⟩ := checkDepth_error h
  have hpos := t.depth_pos
  rw [hcause]
  exact .tooDeep (by omega)

/-- **A lookup fails only for what is wrong in the term.** -/
theorem Refuses.of_resolve (t : Term) :
    t.Fits scope → ∀ {depth deepest : Nat} {e : CompileError}, depth + t.depth ≤ deepest + 1 →
      scope.resolve depth t = .error e → scope.Refuses t.bare t.calls deepest e.cause := by
  induction t with
  | number numeral position =>
    intro _ depth deepest e hdepth h
    rw [resolve] at h
    rcases bind_eq_error.1 h with h | ⟨_, _, h⟩
    · exact .of_checkDepth hdepth h
    · cases h
  | name text position =>
    intro hfits depth deepest e hdepth h
    rw [resolve] at h
    rcases bind_eq_error.1 h with h | ⟨_, _, h⟩
    · exact .of_checkDepth hdepth h
    rcases bind_eq_error.1 h with h | ⟨_, _, h⟩
    · obtain ⟨hunknown, hcause⟩ := refer_error (Term.names_name.1 hfits) h
      rw [hcause]
      exact .unknownName (.inl (List.mem_singleton_self text)) hunknown
    · cases h
  | call text position arguments ih =>
    intro hfits depth deepest e hdepth h
    obtain ⟨hcallable, hfits⟩ := Term.names_call.1 hfits
    have hall : ∀ t ∈ arguments, depth + 1 + t.depth ≤ deepest + 1 := fun t ht ↦ by
      have hle := Term.depthOfAll_le.1 le_rfl t ht
      rw [Term.depth] at hdepth
      omega
    have hmem : (text, arguments.length) ∈ (Term.call text position arguments).calls :=
      List.mem_cons_self ..
    rw [resolve] at h
    rcases bind_eq_error.1 h with h | ⟨_, _, h⟩
    · exact .of_checkDepth hdepth h
    rcases bind_eq_error.1 h with h | ⟨f, hcallee, h⟩
    · obtain ⟨hunknown, hcause⟩ := callee_error hcallable h
      rw [hcause]
      exact .unknownName (.inr ⟨arguments.length, hmem⟩) hunknown
    rcases bind_eq_error.1 h with h | ⟨es, hes, h⟩
    · have hrefuses := of_resolveAll (fun t ht ↦ ih t ht (hfits t ht) (hall t ht)) h
      exact hrefuses.mono (List.Subset.refl _) (List.subset_cons_self ..) le_rfl
    · obtain ⟨hwrong, hcause⟩ := closeBracket_call_error h
      rw [resolveAll_length hes] at hwrong hcause
      rw [hcause]
      exact .wrongArity hmem (callee_ok hcallee) hwrong
  | group position inner ih =>
    intro hfits depth deepest e hdepth h
    rw [resolve] at h
    rcases bind_eq_error.1 h with h | ⟨_, _, h⟩
    · exact .of_checkDepth hdepth h
    rw [Term.depth] at hdepth
    rcases bind_eq_error.1 h with h | ⟨_, _, h⟩
    · exact ih (Term.names_group.1 hfits) (by omega) h
    · cases h
  | negate position operand ih =>
    intro hfits depth deepest e hdepth h
    rw [resolve] at h
    rcases bind_eq_error.1 h with h | ⟨_, _, h⟩
    · exact .of_checkDepth hdepth h
    rcases bind_eq_error.1 h with h | ⟨_, _, h⟩
    · exact ih (Term.names_negate.1 hfits) hdepth h
    · cases h
  | binary op position left right ihl ihr =>
    intro hfits depth deepest e hdepth h
    obtain ⟨hfitsl, hfitsr⟩ := Term.names_binary.1 hfits
    rw [Term.depth] at hdepth
    have hdepthl : depth + left.depth ≤ deepest + 1 := by omega
    have hdepthr : (if op = .pow then depth + 1 else depth) + right.depth ≤ deepest + 1 := by
      split at hdepth <;> simp_all <;> omega
    rw [resolve] at h
    rcases bind_eq_error.1 h with h | ⟨_, _, h⟩
    · have hrefuses := ihl hfitsl hdepthl h
      exact hrefuses.mono (List.subset_append_left ..) (List.subset_append_left ..) le_rfl
    rcases bind_eq_error.1 h with h | ⟨_, _, h⟩
    · have hrefuses := ihr hfitsr hdepthr h
      exact hrefuses.mono (List.subset_append_right ..) (List.subset_append_right ..) le_rfl
    · cases h
  | assign target position value ih =>
    intro hfits depth deepest e hdepth h
    obtain ⟨hfree, hfits⟩ := Term.names_assign.1 hfits
    rw [resolve] at h
    rcases bind_eq_error.1 h with h | ⟨_, _, h⟩
    · exact .of_checkDepth hdepth h
    rcases bind_eq_error.1 h with h | ⟨_, _, h⟩
    · obtain ⟨hunknown, hcause⟩ := refer_error hfree h
      rw [hcause]
      exact .unknownName (.inl (List.mem_cons_self ..)) hunknown
    rcases bind_eq_error.1 h with h | ⟨_, _, h⟩
    · have hrefuses := ih hfits hdepth h
      exact hrefuses.mono (List.subset_cons_self ..) (List.Subset.refl _) le_rfl
    · cases h

/-! ## Texts -/

theorem Refuses.of_resolveFinished {ts : List (Term × Nat)} {deepest : Nat} {e : CompileError}
    (hfits : ∀ t ∈ ts.map Prod.fst, t.Fits scope)
    (hdepth : ∀ t ∈ ts.map Prod.fst, t.depth ≤ deepest)
    (h : scope.resolveFinished ts = .error e) :
    ∃ t ∈ ts.map Prod.fst, scope.Refuses t.bare t.calls deepest e.cause := by
  induction ts with
  | nil => cases h
  | cons t ts ih =>
    rw [List.map_cons] at hfits hdepth ⊢
    obtain ⟨hfit, hfits⟩ := List.forall_mem_cons.1 hfits
    obtain ⟨hle, hdepth⟩ := List.forall_mem_cons.1 hdepth
    rw [resolveFinished] at h
    rcases bind_eq_error.1 h with h | ⟨_, _, h⟩
    · exact ⟨t.1, List.mem_cons_self .., of_resolve t.1 hfit (by omega) h⟩
    rcases bind_eq_error.1 h with h | ⟨_, _, h⟩
    · obtain ⟨u, hu, hrefuses⟩ := ih hfits hdepth h
      exact ⟨u, List.mem_cons_of_mem _ hu, hrefuses⟩
    · cases h

/-- A text is refused for what is wrong in one of its statements. -/
theorem Refuses.of_resolveScript {script : Script} {e : CompileError}
    (hfits : ∀ t ∈ script.statements, t.Fits scope) (h : scope.resolveScript script = .error e) :
    scope.Refuses script.bare script.calls script.depth e.cause := by
  have hdepth : ∀ t ∈ script.statements, t.depth ≤ script.depth := Term.depthOfAll_le.1 le_rfl
  -- It is enough to find the statement.
  suffices hmem : ∃ t ∈ script.statements, scope.Refuses t.bare t.calls script.depth e.cause by
    obtain ⟨t, ht, hrefuses⟩ := hmem
    exact hrefuses.mono (fun x hx ↦ Term.mem_bareOfAll.2 ⟨t, ht, hx⟩)
      (fun c hc ↦ Term.mem_callsOfAll.2 ⟨t, ht, hc⟩) le_rfl
  simp only [Script.statements, List.forall_mem_append, List.forall_mem_singleton] at hfits hdepth ⊢
  rw [resolveScript] at h
  rcases bind_eq_error.1 h with h | ⟨_, _, h⟩
  · obtain ⟨t, ht, hrefuses⟩ := of_resolveFinished hfits.1 hdepth.1 h
    exact ⟨t, List.mem_append_left _ ht, hrefuses⟩
  rcases bind_eq_error.1 h with h | ⟨_, _, h⟩
  · exact ⟨script.last, by simp, of_resolve script.last hfits.2 (by omega) h⟩
  · cases h

theorem compile_ok_iff {text : String} :
    (∃ p, scope.compile text = .ok p) ↔ ∃ sequence, scope.read text = .ok sequence := by
  rw [compile]
  cases scope.read text with
  | ok sequence => exact ⟨fun _ ↦ ⟨sequence, rfl⟩, fun _ ↦ ⟨sequence.program text, rfl⟩⟩
  | error e => simp [Except.map]

theorem compile_error_iff {text : String} {e : CompileError} :
    scope.compile text = .error e ↔ scope.read text = .error e := by
  rw [compile]
  cases scope.read text <;> simp [Except.map]

/-- Statements that suit have known names, calls as their functions ask and no operand too deep. -/
theorem ResolvesScript.suits {rows : List Row} {ts : List Placed} {script : Script}
    {sequence : Sequence} (hresolves : scope.ResolvesScript rows script sequence)
    (h : Script.Parses ts script) :
    AllNames scope.Known ts ∧
    (∀ c ∈ script.calls, ∀ f, scope.functions.find? c.1 = some f → c.2 = f.arity) ∧
    (script.depth : Int) ≤ scope.limit := by
  have hsuits : ∀ t ∈ script.statements, scope.Suits 1 t := fun t ht ↦ by
    obtain ⟨e, he⟩ := hresolves.exists_of_mem t ht
    exact he.suits
  obtain ⟨hbare, hcalls⟩ := Script.forall_names.1 fun t ht ↦ (hsuits t ht).names
  refine ⟨h.allNames_iff.2 ⟨fun text htext ↦ .inr (hbare text htext), fun c hc ↦ ?_⟩, ?_, ?_⟩
  · obtain ⟨f, hf, _⟩ := hcalls c hc
    exact .inl (by rw [hf, Option.isSome_some])
  · intro c hc f hf
    obtain ⟨g, hg, harity⟩ := hcalls c hc
    rw [hf, Option.some.injEq] at hg
    rw [harity, hg]
  · have hdepth : script.depth ≤ scope.limit.toNat := Term.depthOfAll_le.2 fun t ht ↦ by
      have hshallow := (hsuits t ht).shallow
      omega
    have hshallow := (hsuits script.last (by simp [Script.statements])).shallow
    omega

/-- **The check and the reader agree.**  A text without a structural problem has a parse tree, and
for every parse tree of it: the text compiles if and only if all of its names are functions or
variables, its calls have as many arguments as their functions take, and its operands do not nest
too deeply.  If it does not compile, the message names one of these. -/
theorem compile_of_accepted {text : String} (h : scope.problem? text = none) :
    (∃ script, Script.Parses (Placed.scan 0 text.toList) script) ∧
    ∀ script, Script.Parses (Placed.scan 0 text.toList) script →
      ((∃ p, scope.compile text = .ok p) ↔
        (∀ name position, ⟨.name name, position⟩ ∈ Placed.scan 0 text.toList → scope.Known name) ∧
        (∀ c ∈ script.calls, ∀ f, scope.functions.find? c.1 = some f → c.2 = f.arity) ∧
        (script.depth : Int) ≤ scope.limit) ∧
      ∀ e, scope.compile text = .error e →
        (∃ name position, ⟨.name name, position⟩ ∈ Placed.scan 0 text.toList ∧
          ¬ scope.Known name ∧ e.cause = .unknownName name (scope.similar name) ∧
          e.report.message = "Unknown identifier: '" ++ name ++ "'") ∨
        (∃ c ∈ script.calls, ∃ f, scope.functions.find? c.1 = some f ∧ c.2 ≠ f.arity ∧
          e.cause = .wrongArity f.name f.arity c.2 ∧
          e.report.message = "Function '" ++ f.name ++ "' takes " ++ toString f.arity ++
            " argument(s), got " ++ toString c.2) ∨
        scope.limit < script.depth ∧ e.cause = .tooDeep scope.limit ∧
          e.report.message =
            "Expression nested too deeply (limit " ++ toString scope.limit ++ ")" := by
  refine ⟨exists_parses h, fun script hscript ↦ ?_⟩
  have hfits := hscript.fits (namesFit_of_problem? h)
  have hread := read_eq hscript hfits
  have hrefuses : ∀ e, scope.compile text = .error e →
      scope.Refuses script.bare script.calls script.depth e.cause := fun e he ↦
    .of_resolveScript hfits (hread ▸ compile_error_iff.1 he)
  refine ⟨⟨fun hok ↦ ?_, fun ⟨hknown, harity, hdepth⟩ ↦ ?_⟩, fun e he ↦ ?_⟩
  · obtain ⟨sequence, hsequence⟩ := compile_ok_iff.1 hok
    obtain ⟨rows, hresolves⟩ := resolvesScript_of_resolveScript (hread ▸ hsequence)
    exact hresolves.suits hscript
  · cases hcompile : scope.compile text with
    | ok p => exact ⟨p, rfl⟩
    | error e =>
      exfalso
      have hcause := hrefuses e hcompile
      generalize e.cause = cause at hcause
      rcases hcause with ⟨hmem, hunknown⟩ | ⟨hmem, hf, hwrong⟩ | hdeep
      · obtain ⟨position, htoken⟩ := hscript.exists_token hmem
        exact hunknown (hknown _ position htoken)
      · exact hwrong (harity _ hmem _ hf)
      · omega
  · have hcause := hrefuses e he
    rw [CompileError.report]
    generalize e.cause = cause at hcause
    rcases hcause with ⟨hmem, hunknown⟩ | ⟨hmem, hf, hwrong⟩ | hdeep
    · obtain ⟨position, htoken⟩ := hscript.exists_token hmem
      exact .inl ⟨_, position, htoken, hunknown, rfl, rfl⟩
    · exact .inr (.inl ⟨_, hmem, _, hf, hwrong, rfl, rfl⟩)
    · exact .inr (.inr ⟨hdeep, rfl, rfl⟩)

/-- A text that passes the check and compiles where operands nest at most two deep. -/
theorem compile_of_accepted_power :
    (⟨.standard, Environment.empty.create "x" (.text "a"), 2⟩ : Scope).problem? "abs(x)^-x" =
      none ∧
    ∃ script, Script.Parses (Placed.scan 0 "abs(x)^-x".toList) script ∧
      (script.depth : Int) ≤ 2 := by
  have hproblem : (⟨.standard, Environment.empty.create "x" (.text "a"), 2⟩ : Scope).problem?
      "abs(x)^-x" = none := by decide +kernel
  have hcompile : (compile ⟨.standard, Environment.empty.create "x" (.text "a"), 2⟩
      "abs(x)^-x").map (·.maxStack) = .ok 2 := by decide +kernel
  obtain ⟨p, hp, _⟩ := exists_of_map_compile hcompile
  obtain ⟨⟨script, hscript⟩, hall⟩ := compile_of_accepted hproblem
  obtain ⟨_, _, hdepth⟩ := (hall script hscript).1.1 ⟨p, hp⟩
  exact ⟨hproblem, script, hscript, hdepth⟩

end Scope

end Reckoner
