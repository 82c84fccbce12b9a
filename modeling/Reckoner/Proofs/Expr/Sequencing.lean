import Reckoner.Proofs.Expr.Balance
import Reckoner.Proofs.Expr.Moved
import Reckoner.Proofs.Program.Places

/-!
# A comma is composition

Two texts with a comma between them are compiled to the code of the first, an instruction that drops
its value, and the code of the second with its positions moved (`Scope.compile_append_comma`).
Neither text knows of the other: not of its brackets, not of how deeply it nests, and no sign is
worked in across the comma.

So a run of the two is a run of the first and then, if it has succeeded, a run of the second on what
the first has left behind (`Scope.run_append_comma`).
-/

set_option autoImplicit false

namespace Reckoner

/-! ## The code of a tree further on -/

theorem negateCode_moved (k position : Nat) (code : Code) :
    negateCode (position + k) (code.map (Instruction.moved k)) =
      (negateCode position code).map (Instruction.moved k) := by
  obtain rfl | ⟨init, ⟨operation, origin⟩, rfl⟩ := List.eq_nil_or_concat' code
  · simp [negateCode, Instruction.moved]
  rw [List.map_append, List.map_singleton, Instruction.moved]
  cases operation with
  | constant value => simp [negateCode_constant, Instruction.moved]
  | negate => simp [negateCode_negate]
  | _ =>
    rw [negateCode_other _ _ _ (by simp) (by simp), negateCode_other _ _ _ (by simp) (by simp)]
    simp [Instruction.moved]

namespace Expr

mutual

theorem code_moved (k : Nat) : ∀ e : Expr,
    (e.moved k).code = e.code.map (Instruction.moved k)
  | number .. | name _ => by simp [moved, code, Instruction.moved, Reference.moved]
  | call _ _ arguments => by
    simp [moved, code, Instruction.moved, codeOfAll_moved k arguments]
  | group _ inner => code_moved k inner
  | negate position operand => by
    rw [moved, code, code_moved k operand, code, negateCode_moved]
  | binary _ _ left right => by
    simp [moved, code, Instruction.moved, code_moved k left, code_moved k right]
  | assign _ value => by
    simp [moved, code, Instruction.moved, Reference.moved, code_moved k value]

theorem codeOfAll_moved (k : Nat) : ∀ es : List Expr,
    codeOfAll (movedAll k es) = (codeOfAll es).map (Instruction.moved k)
  | [] => rfl
  | e :: es => by
    rw [movedAll, codeOfAll, code_moved k e, codeOfAll_moved k es, codeOfAll, List.map_append]

end

mutual

theorem height_moved (k : Nat) : ∀ e : Expr, (e.moved k).height = e.height
  | number .. | name _ => rfl
  | call _ _ arguments => congrArg (max 1) (heightOfAll_moved k arguments)
  | group _ inner => height_moved k inner
  | negate _ operand => height_moved k operand
  | binary _ _ left right => by
    rw [moved, height, height_moved k left, height_moved k right, height]
  | assign _ value => height_moved k value

theorem heightOfAll_moved (k : Nat) : ∀ es : List Expr,
    heightOfAll (movedAll k es) = heightOfAll es
  | [] => rfl
  | e :: es => by
    rw [movedAll, heightOfAll, height_moved k e, heightOfAll_moved k es, heightOfAll]

end

end Expr

namespace Sequence

/-- Statements behind others and a comma. -/
theorem code_behind (s t : Sequence) (k comma : Nat) :
    (t.behind (s.finished ++ [⟨s.last, comma⟩]) k).code =
      s.code ++ ⟨.discard, comma⟩ :: t.code.map (Instruction.moved k) := by
  simp [behind, code, Finished.moved, Instruction.moved, Expr.code_moved, List.flatMap_map,
    List.map_flatMap]

theorem height_moved (k : Nat) (fs : List Finished) (last : Expr) :
    height ⟨fs.map (Finished.moved k), last.moved k⟩ = height ⟨fs, last⟩ := by
  induction fs with
  | nil => exact Expr.height_moved k last
  | cons f fs ih =>
    rw [List.map_cons, height_cons, ih, height_cons, Finished.moved, Expr.height_moved]

theorem height_behind (s t : Sequence) (k comma : Nat) :
    (t.behind (s.finished ++ [⟨s.last, comma⟩]) k).height = max s.height t.height := by
  obtain ⟨fs, last⟩ := s
  rw [behind]
  induction fs with
  | nil =>
    rw [List.nil_append, List.singleton_append, height_cons, height_moved]
    rfl
  | cons f fs ih =>
    rw [List.cons_append, List.cons_append, height_cons, ih, height_cons, max_assoc]

end Sequence

/-! ## Programs -/

namespace Scope

variable {scope : Scope} {text rest : String} {p q : Program}

/-- **The program of two texts with a comma between them.** -/
theorem compile_append_comma (hp : scope.compile text = .ok p) (hq : scope.compile rest = .ok q) :
    ∃ r, scope.compile (text ++ "," ++ rest) = .ok r ∧
      r.code = p.code ++ ⟨.discard, text.length⟩ ::
        q.code.map (Instruction.moved (text.length + 1)) ∧
      r.maxStack = max p.maxStack q.maxStack := by
  obtain ⟨s, hs, rfl⟩ := read_of_compile hp
  obtain ⟨t, ht, rfl⟩ := read_of_compile hq
  let joined := t.behind (s.finished ++ [⟨s.last, text.length⟩]) (text.length + 1)
  refine ⟨joined.program (text ++ "," ++ rest), ?_, Sequence.code_behind s t _ _,
    Sequence.height_behind s t _ _⟩
  rw [compile, read_append_comma hs ht]
  rfl

/-- **A run of one program and then of another.** -/
theorem run_append_discard (h : scope.compile text = .ok p) (code : Code) (comma : Int)
    (functions : List Builtin) (env : Environment) :
    Code.run functions (p.code ++ ⟨.discard, comma⟩ :: code) [] env =
      Outcome.andThen (p.run functions env) fun _ env' ↦ Code.run functions code [] env' := by
  rw [Program.run, Code.run_eq_exec, Code.run_eq_exec, Code.exec_append]
  cases hexec : Code.exec functions p.code [] env with
  | mk result env' =>
    cases result with
    | error fault => rfl
    | ok stack =>
      obtain ⟨value, rfl⟩ := exists_value_of_compile h hexec
      exact (Code.run_eq_exec functions code [] env').symm

/-- **A comma is composition.**  If two texts are accepted and compiled, so is the text of the two
with a comma between them.  Its code is that of the first text, an instruction at the comma that
drops the value, and the code of the second text further on; it needs as many places on the stack as
the one that needs more.  A run of it is a run of the first program and, if that succeeds, a run of
the second on the environment that is left, with its fault further on. -/
theorem run_of_comma (htext : scope.problem? text = none) (hrest : scope.problem? rest = none)
    (hp : scope.compile text = .ok p) (hq : scope.compile rest = .ok q) :
    scope.problem? (text ++ "," ++ rest) = none ∧
      ∃ r, scope.compile (text ++ "," ++ rest) = .ok r ∧
        r.code = p.code ++ ⟨.discard, text.length⟩ ::
          q.code.map (Instruction.moved (text.length + 1)) ∧
        r.maxStack = max p.maxStack q.maxStack ∧
        ∀ functions env, r.run functions env =
          Outcome.andThen (p.run functions env) fun _ env' ↦
            Outcome.moved (text.length + 1) (q.run functions env') := by
  obtain ⟨r, hr, hcode, hmax⟩ := compile_append_comma hp hq
  refine ⟨problem?_append_comma_eq_none htext hrest, r, hr, hcode, hmax, fun functions env ↦ ?_⟩
  rw [Program.run, hcode, run_append_discard hp]
  simp only [Code.run_moved]
  rfl

/-- The assignment succeeds; the sum of two texts, which by itself fails at its second character,
fails at the sixth. -/
theorem run_of_comma_texts :
    let env : Environment := ⟨[⟨"x", .text "a", 0, false⟩, ⟨"y", .text "b", 1, false⟩], 2⟩
    let scope : Scope := ⟨.standard, env, 64⟩
    ∃ r, scope.compile "y=x,x+y" = .ok r ∧ r.maxStack = 2 ∧
      r.run [] env = (.error (.eval (.operands .add .text .text) (some 5)),
        ⟨[⟨"x", .text "a", 0, true⟩, ⟨"y", .text "a", 1, true⟩], 2⟩) := by
  intro env scope
  have hfirst : (scope.compile "y=x").map (fun p ↦ (p.code, p.maxStack)) =
      .ok ([⟨.load 0, 2⟩, ⟨.store 1, 0⟩], 1) := by decide +kernel
  have hsecond : (scope.compile "x+y").map (fun p ↦ (p.code, p.maxStack)) =
      .ok ([⟨.load 0, 0⟩, ⟨.load 1, 2⟩, ⟨.binary .add, 1⟩], 2) := by decide +kernel
  obtain ⟨p, hp, hpcode⟩ := exists_of_map_compile hfirst
  obtain ⟨q, hq, hqcode⟩ := exists_of_map_compile hsecond
  obtain ⟨-, r, hr, -, hmax, hrun⟩ := run_of_comma (by decide +kernel) (by decide +kernel) hp hq
  rw [Prod.mk.injEq] at hpcode hqcode
  refine ⟨r, hr, by rw [hmax, hpcode.2, hqcode.2]; rfl, ?_⟩
  rw [hrun]
  simp only [Program.run, hpcode.1, hqcode.1]
  decide +kernel

end Scope

end Reckoner
