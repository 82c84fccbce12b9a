import Reckoner.Proofs.Environment.Access
import Reckoner.Proofs.Expr.Origin
import Reckoner.Proofs.Expr.Reader
import Reckoner.Proofs.Grammar.Evaluation
import Reckoner.Proofs.Program.Functions
import Reckoner.Proofs.Value.Sign

/-!
# Compiled code computes the value of its text

`Code.Computes` says that code pushes the value of a term, or fails as the term fails, and changes
the environment as the term does.  Whether it does so depends only on which names own which slots,
and no code changes that, so that one environment, `home`, stands for all that a run goes through.

Signs are the difficulty.  The code of a sign depends on the last instruction of the code before it,
so that an induction over terms must know how code ends (`Code.Ends`):

* with a constant that the term always has for its value;
* with the sign of the term, which is then not to be mistaken for the sign of an operand;
* with some other instruction, and then the term has no sign.

`Code.Ends.negate` is the step for a sign, `Scope.Resolves.translates` the induction, and
`Scope.run_of_accepted` the result for a text.
-/

set_option autoImplicit false

namespace Reckoner

variable {functions : List Builtin} {scope : Scope} {home : Environment}

/-- The same names own the same slots. -/
structure Environment.Alike (home env : Environment) : Prop where
  keys : env.keys = home.keys
  nextSlot : env.nextSlot = home.nextSlot

namespace Environment.Alike

variable {env env' : Environment}

theorem refl (env : Environment) : Alike env env := ⟨rfl, rfl⟩

theorem wellFormed (h : Alike home env) (hhome : home.WellFormed) : env.WellFormed :=
  hhome.of_keys_eq h.keys h.nextSlot

theorem owns (h : Alike home env) {name : String} {slot : Nat} (hown : home.Owns name slot) :
    env.Owns name slot := by
  rw [Owns, h.keys]
  exact hown

/-- Where code has ended, the same names own the same slots as where it began. -/
theorem of_exec (h : Alike home env) {code : Code} {stack : Stack} {result : Except Fault Stack}
    (hexec : Code.exec functions code stack env = (result, env')) : Alike home env' := by
  obtain ⟨hkeys, hnext⟩ := Code.keys_exec functions code stack env
  rw [hexec] at hkeys hnext
  exact ⟨hkeys.trans h.keys, hnext.trans h.nextSlot⟩

end Environment.Alike

/-! ## Code and terms -/

/-- Pushes the value of a computation. -/
def Outcome.push (stack : Stack) (o : Outcome Value) : Outcome Stack :=
  o.andThen fun a env ↦ (.ok (a :: stack), env)

theorem Outcome.push_result (o : Outcome Value) :
    (o.push []).andThen (fun stack env ↦ (stack.result, env)) = o := by
  rcases o with ⟨_ | _, _⟩ <;> rfl

namespace Code

/-- Code pushes the value of a term. -/
def Computes (functions : List Builtin) (home : Environment) (code : Code) (t : Term) : Prop :=
  ∀ (stack : Stack) (env : Environment), home.Alike env →
    exec functions code stack env = (t.eval env).push stack

/-- Code pushes the values of several terms, the last on top. -/
def ComputesAll (functions : List Builtin) (home : Environment) (code : Code) (ts : List Term) :
    Prop :=
  ∀ (stack : Stack) (env : Environment), home.Alike env →
    exec functions code stack env =
      (Term.evalAll ts env).andThen fun values env ↦ (.ok (values.reverse ++ stack), env)

/-- Code behind the code of a term goes on with the value of the term. -/
theorem Computes.exec_append {code rest : Code} {t : Term} (h : Computes functions home code t)
    {stack : Stack} {env : Environment} (henv : home.Alike env)
    {f : Value → Environment → Outcome Stack}
    (hrest : ∀ a env, home.Alike env → exec functions rest (a :: stack) env = f a env) :
    exec functions (code ++ rest) stack env = (t.eval env).andThen f := by
  have hcode := h stack env henv
  rw [Code.exec_append, hcode]
  rcases heval : t.eval env with ⟨_ | a, env'⟩
  · rfl
  · rw [heval] at hcode
    exact hrest a env' (henv.of_exec hcode)

theorem ComputesAll.nil : ComputesAll functions home [] [] := fun _ _ _ ↦ rfl

theorem ComputesAll.cons {code rest : Code} {t : Term} {ts : List Term}
    (h : Computes functions home code t) (hrest : ComputesAll functions home rest ts) :
    ComputesAll functions home (code ++ rest) (t :: ts) := by
  intro stack env henv
  rw [h.exec_append henv fun a env henv ↦ hrest (a :: stack) env henv, Term.evalAll,
    Outcome.andThen_assoc]
  congr 1
  funext a env
  rw [Outcome.andThen_assoc]
  congr 1
  funext values env
  simp

/-! ## Single instructions -/

theorem exec_load {text : String} {slot position : Nat} {stack : Stack} {env : Environment}
    (henv : env.WellFormed) (hown : env.Owns text slot) :
    exec functions [⟨.load slot, position⟩] stack env =
      ((Term.name text position).eval env).push stack := by
  obtain ⟨v, _, _, hget⟩ := henv.get_of_owns hown
  rw [exec_singleton, Instruction.exec, Operation.step, henv.load_eq_get hown, Term.eval, hget]
  rfl

theorem exec_store {target : String} {slot position : Nat} {a : Value} {stack : Stack}
    {env : Environment} (henv : env.WellFormed) (hown : env.Owns target slot) :
    exec functions [⟨.store slot, position⟩] (a :: stack) env =
      (.ok (a :: stack), env.put target a) := by
  rw [exec_singleton, Instruction.exec, Operation.step, henv.storeSlot_eq_put hown]

theorem exec_binary (op : Operator) (position : Nat) (a b : Value) (stack : Stack)
    (env : Environment) :
    exec functions [⟨.binary op, position⟩] (b :: a :: stack) env =
      (Outcome.located position ((op.apply a b).mapError .ofCause) env).push stack := by
  rw [exec_singleton, Instruction.exec, Operation.step]
  cases op.apply a b <;> rfl

theorem exec_negate (position : Nat) (a : Value) (stack : Stack) (env : Environment) :
    exec functions [⟨.negate, position⟩] (a :: stack) env =
      (Outcome.located position (a.negate.mapError .ofCause) env).push stack := by
  rw [exec_singleton, Instruction.exec, Operation.step]
  cases a.negate <;> rfl

/-- A call takes as many values as its function takes, in the order in which they were pushed. -/
theorem exec_call {f : Function} {b : Builtin} (hf : functionAt? functions f.code = some b)
    {position : Nat} {values : List Value} (harity : values.length = f.arity) (stack : Stack)
    (env : Environment) :
    exec functions [⟨.call f.code f.arity, position⟩] (values.reverse ++ stack) env =
      (Outcome.located position (b.apply values) env).push stack := by
  have hcount : argumentCount (values.reverse ++ stack).length f.arity =
      values.reverse.length := by
    rw [argumentCount, if_pos (Int.natCast_nonneg _), Int.toNat_natCast, List.length_reverse,
      harity]
  rw [exec_singleton, Instruction.exec, Operation.step, callStep]
  simp only [hf, hcount, List.take_left', List.drop_left', List.reverse_reverse]
  cases b.apply values <;> rfl

/-! ## Signs -/

/-- How the code of a term ends, as far as a sign before the term must know it. -/
inductive Ends (functions : List Builtin) (home : Environment) : Code → Term → Prop
  | constant {v : Value} {origin : Int} {t : Term} (signed : v.negate = .ok v.opposite)
    (value : ∀ env, t.eval env = (.ok v, env))
    (unsigned : ∀ u, t.unsigned? = some u →
      u.unsigned? = none ∧ ∀ env, u.eval env = (.ok v.opposite, env)) :
    Ends functions home [⟨.constant v, origin⟩] t
  | sign {init : Code} {origin : Int} {t u : Term} (unsigned : t.unsigned? = some u)
    (computes : Computes functions home init u) (ends : Ends functions home init u) :
    Ends functions home (init ++ [⟨.negate, origin⟩]) t
  | other {init : Code} {operation : Operation} {origin : Int} {t : Term}
    (constant : ∀ v, operation ≠ .constant v) (sign : operation ≠ .negate)
    (unsigned : t.unsigned? = none) : Ends functions home (init ++ [⟨operation, origin⟩]) t

theorem computes_constant {v : Value} {origin : Int} {t : Term}
    (h : ∀ env, t.eval env = (.ok v, env)) :
    Computes functions home [⟨.constant v, origin⟩] t := by
  intro stack env _
  rw [exec_singleton, Instruction.exec, Operation.step, h]
  rfl

theorem Computes.negate {code : Code} {t : Term} (h : Computes functions home code t)
    (position : Nat) :
    Computes functions home (code ++ [⟨.negate, position⟩]) (.negate position t) := by
  intro stack env henv
  rw [h.exec_append henv fun a env _ ↦ exec_negate position a stack env, Term.eval, Outcome.push,
    Outcome.andThen_assoc]
  rfl

/-- Brackets do not show in code. -/
theorem Ends.group {code : Code} {t : Term} (h : Ends functions home code t) (position : Nat) :
    Ends functions home code (.group position t) := by
  cases h with
  | constant signed value unsigned => exact .constant signed value unsigned
  | sign unsigned computes ends => exact .sign unsigned computes ends
  | other constant sign unsigned => exact .other constant sign unsigned

/-- **A sign is worked into the code as it is worked into the term.** -/
theorem Ends.negate {code : Code} {t : Term} (h : Ends functions home code t)
    (hcomputes : Computes functions home code t) (position : Nat) :
    Computes functions home (negateCode position code) (t.turn position) ∧
      Ends functions home (negateCode position code) (t.turn position) := by
  cases h with
  | @constant v origin _ signed value unsigned =>
    have hsigned : v.opposite.negate = .ok v.opposite.opposite := by
      rw [Value.opposite_opposite]
      exact Value.negate_negate signed
    have hcode : negateCode position [⟨.constant v, origin⟩] =
        [⟨.constant v.opposite, position⟩] := negateCode_constant position [] v origin
    rw [hcode, Term.turn]
    cases hunsigned : t.unsigned? with
    | none =>
      have heval : ∀ env, (Term.negate position t).eval env = (.ok v.opposite, env) := by
        intro env
        rw [Term.eval, value, Outcome.andThen_ok, signed]
        rfl
      refine ⟨computes_constant heval, .constant hsigned heval ?_⟩
      rintro u ⟨⟩
      exact ⟨hunsigned, fun env ↦ by rw [value, Value.opposite_opposite]⟩
    | some u =>
      obtain ⟨hu, heval⟩ := unsigned u hunsigned
      refine ⟨computes_constant heval, .constant hsigned heval ?_⟩
      intro w hw
      rw [Option.getD_some, hu] at hw
      cases hw
  | @sign init origin _ u unsigned computes ends =>
    rw [negateCode_negate, Term.turn, unsigned]
    exact ⟨computes, ends⟩
  | @other init operation origin _ constant sign unsigned =>
    rw [negateCode_other position init origin constant sign, Term.turn, unsigned]
    exact ⟨hcomputes.negate position,
      .sign rfl hcomputes (.other constant sign unsigned)⟩

end Code

/-! ## Terms -/

namespace Scope

/-- A run finds the function of a name at its code. -/
def Implements (scope : Scope) (functions : List Builtin) : Prop :=
  ∀ (text : String) (f : Function), scope.functions.find? text = some f →
    ∃ b, Builtin.ofName? text = some b ∧ functionAt? functions f.code = some b

/-- The variable of a name owns the slot that the reader found. -/
def Bound (scope : Scope) (home : Environment) (text : String) : Prop :=
  ∀ v, scope.variables.find? text = some v → home.Owns text v.slot

/-- What an induction over terms shows of the code of a term. -/
structure Translates (functions : List Builtin) (home : Environment) (code : Code) (t : Term) :
    Prop where
  computes : code.Computes functions home t
  ends : code.Ends functions home t

theorem computesAll_of_translates {arguments : List (Term × Expr)}
    (h : ∀ a ∈ arguments, Translates functions home a.2.code a.1.cancelSigns) :
    Code.ComputesAll functions home (Expr.codeOfAll (arguments.map Prod.snd))
      (Term.cancelSignsOfAll (arguments.map Prod.fst)) := by
  induction arguments with
  | nil => exact .nil
  | cons a arguments ih =>
    obtain ⟨ha, harguments⟩ := List.forall_mem_cons.1 h
    exact .cons ha.computes (ih harguments)

/-- **The code of a term computes the term without its pairs of signs.** -/
theorem Resolves.translates {depth : Nat} {t : Term} {e : Expr} (h : scope.Resolves depth t e)
    (himplements : scope.Implements functions) (hhome : home.WellFormed)
    (hnames : t.Names (scope.Bound home) fun _ _ ↦ True) :
    Translates functions home e.code t.cancelSigns := by
  induction h with
  | number =>
    refine ⟨Code.computes_constant fun _ ↦ rfl, .constant rfl (fun _ ↦ rfl) ?_⟩
    rintro u ⟨⟩
  | name _ defined =>
    have hown := Term.names_name.1 hnames _ defined
    refine ⟨fun stack env henv ↦ ?_, @Code.Ends.other _ _ [] _ _ _ (by simp) (by simp) rfl⟩
    exact Code.exec_load (henv.wellFormed hhome) (henv.owns hown)
  | @call depth text position f ts es arguments _ function terms exprs _ arity ih =>
    subst terms exprs
    obtain ⟨_, hnames⟩ := Term.names_call.1 hnames
    obtain ⟨b, hb, hat⟩ := himplements text f function
    have hall := computesAll_of_translates fun a ha ↦
      ih a ha (hnames a.1 (List.mem_map_of_mem ha))
    have hcall : ∀ values, Term.callNamed text values = b.apply values := by
      intro values
      unfold Term.callNamed
      rw [hb]
    refine ⟨fun stack env henv ↦ ?_, .other (by simp) (by simp) rfl⟩
    rw [Expr.code, Code.exec_append, hall stack env henv, Term.cancelSigns, Term.eval]
    rcases heval : Term.evalAll (Term.cancelSignsOfAll (arguments.map Prod.fst)) env
      with ⟨_ | values, env'⟩
    · rfl
    · have hlength : values.length = f.arity := by
        rw [Term.evalAll_length heval, Term.cancelSignsOfAll_length, List.length_map, arity]
      rw [Outcome.andThen_ok, Outcome.andThen_ok, Code.exec_call hat hlength, ← hcall]
      rfl
  | @group _ position _ _ _ ih =>
    obtain ⟨hcomputes, hends⟩ := ih (Term.names_group.1 hnames)
    exact ⟨hcomputes, hends.group position⟩
  | @negate _ position _ _ _ ih =>
    obtain ⟨hcomputes, hends⟩ := ih (Term.names_negate.1 hnames)
    obtain ⟨hcomputes, hends⟩ := hends.negate hcomputes position
    exact ⟨hcomputes, hends⟩
  | @binary _ op position _ _ _ _ _ _ ihl ihr =>
    obtain ⟨hnamesl, hnamesr⟩ := Term.names_binary.1 hnames
    have hl := (ihl hnamesl).computes
    have hr := (ihr hnamesr).computes
    refine ⟨fun stack env henv ↦ ?_, .other (by simp) (by simp) rfl⟩
    rw [Expr.code, List.append_assoc, Code.Computes.exec_append hl henv fun a env henv ↦
      Code.Computes.exec_append hr henv fun b env _ ↦ Code.exec_binary op position a b stack env]
    rw [Term.cancelSigns, Term.eval, Outcome.push, Outcome.andThen_assoc]
    congr 1
    funext a env
    rw [Outcome.andThen_assoc]
    rfl
  | assign defined _ ih =>
    obtain ⟨hbound, hnames⟩ := Term.names_assign.1 hnames
    have hown := hbound _ defined
    have hcomputes := (ih hnames).computes
    refine ⟨fun stack env henv ↦ ?_, .other (by simp) (by simp) rfl⟩
    rw [Expr.code, Code.Computes.exec_append hcomputes henv fun a env henv ↦
      Code.exec_store (henv.wellFormed hhome) (henv.owns hown)]
    rw [Term.cancelSigns, Term.eval, Outcome.push, Outcome.andThen_assoc]
    rfl

/-! ## Texts -/

/-- Statements that are not the last one leave nothing on the stack. -/
theorem exec_of_rows (himplements : scope.Implements functions) (hhome : home.WellFormed)
    {rows : List Row} (hrows : ∀ r ∈ rows, scope.Resolves 1 r.term r.expr)
    (hnames : ∀ r ∈ rows, r.term.Names (scope.Bound home) fun _ _ ↦ True) {rest : Code}
    {f : Environment → Outcome Stack}
    (hrest : ∀ env, home.Alike env → Code.exec functions rest [] env = f env) {env : Environment}
    (henv : home.Alike env) :
    Code.exec functions
        (rows.flatMap (fun r ↦ r.expr.code ++ [⟨.discard, r.comma⟩]) ++ rest) [] env =
      (Script.evalFinished (rows.map fun r ↦ (r.term.cancelSigns, r.comma)) env).andThen
        fun _ env ↦ f env := by
  induction rows generalizing env with
  | nil => exact hrest env henv
  | cons r rows ih =>
    obtain ⟨hr, hrows⟩ := List.forall_mem_cons.1 hrows
    obtain ⟨hname, hnames⟩ := List.forall_mem_cons.1 hnames
    have hcomputes := (hr.translates himplements hhome hname).computes
    rw [List.flatMap_cons, List.append_assoc, List.append_assoc,
      Code.Computes.exec_append hcomputes henv fun a env henv ↦ ih hrows hnames henv,
      List.map_cons, Script.evalFinished, Outcome.andThen_assoc]

/-- A run of the code of a text comes to the value of its tree. -/
theorem ResolvesScript.run {rows : List Row} {script : Script} {sequence : Sequence}
    (h : scope.ResolvesScript rows script sequence) (himplements : scope.Implements functions)
    (hhome : home.WellFormed)
    (hnames : ∀ t ∈ script.statements, t.Names (scope.Bound home) fun _ _ ↦ True) :
    Code.run functions sequence.code [] home = script.cancelSigns.eval home := by
  rw [Script.statements, List.forall_mem_append, List.forall_mem_singleton, h.terms, List.map_map,
    List.forall_mem_map] at hnames
  have hlast := (h.last.translates himplements hhome hnames.2).computes
  have hrun := exec_of_rows himplements hhome h.finished hnames.1
    (fun env henv ↦ hlast [] env henv) (.refl home)
  rw [Code.run_eq_exec, Sequence.code, h.exprs, List.flatMap_map, hrun, Outcome.andThen_assoc,
    Script.eval, Script.cancelSigns, h.terms, List.map_map]
  congr 1
  funext _ env
  exact Outcome.push_result _

/-- A run that was given what the functions of a table compute implements the table. -/
theorem implements_of_ofList {entries : List (String × Int)}
    (htable : FunctionTable.ofList entries = .ok scope.functions)
    (hbuiltins : scope.functions.builtins = .ok functions) : scope.Implements functions :=
  fun _ _ hfind ↦ FunctionTable.functionAt?_of_find? (FunctionTable.inPlace_of_ofList htable)
    hbuiltins hfind

/-- **A compiled text computes its value.**  A text without a structural problem that compiles has
one parse tree.  Where the variables that it names own the slots that they had when it was compiled,
its program comes to the value or the fault, and leaves behind the environment, to which evaluating
the tree by name comes once pairs of signs have cancelled each other.  Where the tree as it stands
has a value, that is the value. -/
theorem run_of_accepted {entries : List (String × Int)} {builtins : List Builtin} {text : String}
    {p : Program} (htable : FunctionTable.ofList entries = .ok scope.functions)
    (hbuiltins : scope.functions.builtins = .ok builtins) (h : scope.problem? text = none)
    (hcompile : scope.compile text = .ok p) :
    ∃ script, Script.Parses (Placed.scan 0 text.toList) script ∧
      (∀ other, Script.Parses (Placed.scan 0 text.toList) other → other = script) ∧
      ∀ env : Environment, env.WellFormed →
        (∀ name ∈ script.bare, ∀ v, scope.variables.find? name = some v → env.Owns name v.slot) →
        p.run builtins env = script.cancelSigns.eval env ∧
          ∀ a env', script.eval env = (.ok a, env') → p.run builtins env = (.ok a, env') := by
  obtain ⟨sequence, hsequence, rfl⟩ := read_of_compile hcompile
  -- Every parse tree is the tree of what was read.
  have hresolves : ∀ script, Script.Parses (Placed.scan 0 text.toList) script →
      ∃ rows, scope.ResolvesScript rows script sequence := fun script hscript ↦
    resolvesScript_of_resolveScript
      ((read_eq hscript (hscript.fits (namesFit_of_problem? h))).symm.trans hsequence)
  obtain ⟨script, hscript⟩ := exists_parses h
  obtain ⟨rows, hrows⟩ := hresolves script hscript
  refine ⟨script, hscript, fun other hother ↦ ?_, fun env henv howns ↦ ?_⟩
  · obtain ⟨rows', hrows'⟩ := hresolves other hother
    rw [← hrows.script_eq, hrows'.script_eq]
  · have hnames : ∀ t ∈ script.statements, t.Names (scope.Bound env) fun _ _ ↦ True :=
      Script.forall_names.2 ⟨howns, fun _ _ ↦ trivial⟩
    have hrun : (sequence.program text).run builtins env = script.cancelSigns.eval env :=
      hrows.run (implements_of_ofList htable hbuiltins) henv hnames
    exact ⟨hrun, fun a env' heval ↦ hrun.trans (Script.eval_cancelSigns heval)⟩

/-- A program that was compiled for one value of a variable and runs on another. -/
theorem run_of_accepted_sum :
    ∃ p script,
      compile ⟨.standard, Environment.empty.create "x" (.text "a"), 64⟩ "x=x,x+x" = .ok p ∧
      Script.Parses (Placed.scan 0 "x=x,x+x".toList) script ∧
      p.run Builtin.all (Environment.empty.create "x" (.text "b")) =
        script.cancelSigns.eval (Environment.empty.create "x" (.text "b")) := by
  have hproblem : problem? ⟨.standard, Environment.empty.create "x" (.text "a"), 64⟩ "x=x,x+x" =
      none := by decide +kernel
  have hcompile : (compile ⟨.standard, Environment.empty.create "x" (.text "a"), 64⟩
      "x=x,x+x").map (·.maxStack) = .ok 2 := by decide +kernel
  have henv : (Environment.empty.create "x" (.text "b")).WellFormed :=
    Environment.wellFormed_empty.create rfl _
  obtain ⟨p, hp, _⟩ := exists_of_map_compile hcompile
  have howns : ∀ name v, (Environment.empty.create "x" (.text "a")).find? name = some v →
      (Environment.empty.create "x" (.text "b")).Owns name v.slot := by
    intro name v hfind
    have hown := Environment.owns_of_find? hfind
    rwa [Environment.Owns, Environment.keys_create] at hown ⊢
  obtain ⟨script, hscript, _, hrun⟩ := run_of_accepted FunctionTable.ofList_standard
    FunctionTable.builtins_standard hproblem hp
  exact ⟨p, script, hp, hscript, (hrun _ henv fun name _ ↦ howns name).1⟩

/-- Two signs before a text cancel, although there is no negative of a text. -/
theorem run_ne_eval :
    ∃ p script,
      problem? ⟨.standard, Environment.empty.create "t" (.text "abc"), 64⟩ "-(-t)" = none ∧
      compile ⟨.standard, Environment.empty.create "t" (.text "abc"), 64⟩ "-(-t)" = .ok p ∧
      Script.Parses (Placed.scan 0 "-(-t)".toList) script ∧
      (p.run Builtin.all (Environment.empty.create "t" (.text "abc"))).1 = .ok (.text "abc") ∧
      (script.eval (Environment.empty.create "t" (.text "abc"))).1 =
        .error (.eval (.noNegative .text) (some 2)) := by
  have hcompile : (compile ⟨.standard, Environment.empty.create "t" (.text "abc"), 64⟩
      "-(-t)").map (fun p ↦ (p.run Builtin.all (Environment.empty.create "t" (.text "abc"))).1) =
        .ok (.ok (.text "abc")) := by decide +kernel
  have hscript : Script.Parses (Placed.scan 0 "-(-t)".toList)
      ⟨[], .negate 0 (.group 1 (.negate 2 (.name "t" 3)))⟩ := by
    have htokens : Placed.scan 0 "-(-t)".toList = [⟨.operator .sub, 0⟩, ⟨.opening, 1⟩,
        ⟨.operator .sub, 2⟩, ⟨.name "t", 3⟩, ⟨.closing, 4⟩] := by decide +kernel
    have hsigned : Parses .signed [⟨.operator .sub, 2⟩, ⟨.name "t", 3⟩] (.negate 2 (.name "t" 3)) :=
      .negate (.base .name)
    have hgroup : Parses .element
        [⟨.opening, 1⟩, ⟨.operator .sub, 2⟩, ⟨.name "t", 3⟩, ⟨.closing, 4⟩]
        (.group 1 (.negate 2 (.name "t" 3))) := .group (.value (.addend (.factor hsigned)))
    rw [htokens]
    exact @Script.Parses.intro [] _ _ (by simp)
      (.value (.addend (.factor (.negate (.base hgroup)))))
  obtain ⟨p, hp, hrun⟩ := exists_of_map_compile hcompile
  exact ⟨p, _, by decide +kernel, hp, hscript, hrun, by decide +kernel⟩

end Scope

end Reckoner
