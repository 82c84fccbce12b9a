import Reckoner.Proofs.Expr.Instructions
import Reckoner.Proofs.Program.Containment
import Reckoner.Proofs.Program.Functions

/-!
# Compiled programs fail with evaluation errors only

A run of a compiled program comes to a value, or it fails with an error that tells what the
expression did wrong and where.  Nothing else ends it: no operand is missing, since the code is
balanced; no call has too few arguments, since the reader has counted them and the functions of the
table are the standard ones; and no primitive raises an error of its own, since operations are
contained, whatever lawful arithmetic the machine has.

`Scope.run_contained` says so of any lawful arithmetic, and of `Program.run`.
-/

set_option autoImplicit false

namespace Reckoner

variable {scope : Scope} {selection : List Builtin} {text : String} {p : Program}

/-- An instruction compiled for a table of standard functions calls one of them, if it calls any. -/
theorem Instruction.WrittenIn.compiled {tokens : List Placed} {i : Instruction}
    (htable : FunctionTable.ofList (selection.map fun b ↦ (b.name, (b.arity : Int))) =
      .ok scope.functions) (h : i.WrittenIn scope tokens) : i.operation.Compiled selection := by
  cases h with
  | @call f text position _ meaning =>
    obtain ⟨b, hb, harity⟩ := FunctionTable.functionAt?_of_selection htable
      (Scope.find?_of_meaning_function meaning)
    exact ⟨b, hb, by rw [harity]⟩
  | _ => trivial

namespace Scope

/-- A run of a compiled program on any lawful arithmetic. -/
theorem run_of_lawful
    (htable : FunctionTable.ofList (selection.map fun b ↦ (b.name, (b.arity : Int))) =
      .ok scope.functions)
    (hcompile : scope.compile text = .ok p) {A : Arithmetic} (hA : A.Lawful) (env : Environment) :
    (∃ value env', A.run selection p.code [] env = (.ok value, env')) ∨
      ∃ i cause env', A.Fails selection p.code [] env i cause env' ∧
        A.run selection p.code [] env =
          (.error (.fault (.eval cause (some i.position))), env') ∧
        cause.kind ∈ ErrorKind.ofExpressions ∧ 0 ≤ i.position ∧ i.position < text.length := by
  have hbalanced := balanced_of_compile hcompile
  have hcompiled : ∀ i ∈ p.code, i.operation.Compiled selection :=
    fun i hi ↦ (instructions_of_compile hcompile i hi).compiled htable
  rcases hA.exec hcompiled [] env (hbalanced.supplied le_rfl) with
    ⟨stack, env', hexec, hlength⟩ | ⟨i, cause, env', hfails, hkind⟩
  · -- The code has pushed one value.
    rw [hbalanced.effect] at hlength
    obtain ⟨value, rfl⟩ := List.length_eq_one_iff.1 (by exact_mod_cast hlength)
    refine .inl ⟨value, env', ?_⟩
    rw [Arithmetic.run, hexec]
    rfl
  · refine .inr ⟨i, cause, env', hfails, ?_, hkind, position_of_compile hcompile hfails.mem⟩
    rw [Arithmetic.run, hfails.exec]

/-- **Only evaluation errors with a position escape.**  Let a text be compiled for a table of
standard functions, in any selection and any order, and run on any environment, on a machine with
any lawful arithmetic.  The run comes to a value, or it fails at the first instruction that fails,
with an evaluation error of one of the four kinds that tell what an expression did wrong, and with
the position of this instruction, which is in the text.  The same holds of `Program.run`, which is
the run of a machine with the standard arithmetic. -/
theorem run_contained
    (htable : FunctionTable.ofList (selection.map fun b ↦ (b.name, (b.arity : Int))) =
      .ok scope.functions)
    (hcompile : scope.compile text = .ok p) {A : Arithmetic} (hA : A.Lawful) (env : Environment) :
    scope.functions.builtins = .ok selection ∧
    ((∃ value env', A.run selection p.code [] env = (.ok value, env')) ∨
      ∃ i cause env', A.Fails selection p.code [] env i cause env' ∧
        A.run selection p.code [] env =
          (.error (.fault (.eval cause (some i.position))), env') ∧
        cause.kind ∈ ErrorKind.ofExpressions ∧ 0 ≤ i.position ∧ i.position < text.length) ∧
    ((∃ value env', p.run selection env = (.ok value, env')) ∨
      ∃ i cause env', Code.Fails selection p.code [] env i cause env' ∧
        p.run selection env = (.error (.eval cause (some i.position)), env') ∧
        cause.kind ∈ ErrorKind.ofExpressions ∧ 0 ≤ i.position ∧ i.position < text.length) := by
  refine ⟨FunctionTable.builtins_of_ofList htable, run_of_lawful htable hcompile hA env, ?_⟩
  have hstandard := Arithmetic.run_standard selection p.code [] env
  rcases run_of_lawful htable hcompile Arithmetic.lawful_standard env with
    ⟨value, env', h⟩ | ⟨i, cause, env', hfails, h, hrest⟩
  · rw [hstandard, Prod.ext_iff] at h
    exact .inl ⟨value, env', Prod.ext (Arithmetic.total_eq_ok.1 h.1) h.2⟩
  · rw [hstandard, Prod.ext_iff] at h
    exact .inr ⟨i, cause, env', Arithmetic.fails_standard.1 hfails,
      Prod.ext (Arithmetic.total_eq_error.1 h.1) h.2, hrest⟩

/-- A sum of texts fails at its operator. -/
theorem run_contained_sum :
    ∃ p i cause env',
      compile ⟨.standard, Environment.empty.create "x" (.text "a"), 64⟩ "x+x" = .ok p ∧
      Arithmetic.standard.Fails Builtin.all p.code [] (Environment.empty.create "x" (.text "a")) i
        cause env' ∧ i.position = 1 ∧ cause.kind ∈ ErrorKind.ofExpressions := by
  have hcompile : (compile ⟨.standard, Environment.empty.create "x" (.text "a"), 64⟩ "x+x").map
      (fun p ↦ (Arithmetic.standard.run Builtin.all p.code []
        (Environment.empty.create "x" (.text "a"))).1) =
        .ok (.error (.fault (.eval (.operands .add .text .text) (some 1)))) := by decide +kernel
  obtain ⟨p, hp, herror⟩ := exists_of_map_compile hcompile
  obtain ⟨_, hrun, _⟩ := run_contained FunctionTable.ofList_standard hp Arithmetic.lawful_standard
    (Environment.empty.create "x" (.text "a"))
  rcases hrun with ⟨value, env', hvalue⟩ | ⟨i, cause, env', hfails, hfault, hkind, _⟩
  · rw [hvalue] at herror
    cases herror
  · rw [hfault] at herror
    simp only [Except.error.injEq, Raised.fault.injEq, Fault.eval.injEq, Option.some.injEq]
      at herror
    exact ⟨p, i, cause, env', hp, hfails, herror.2, hkind⟩

end Scope

end Reckoner
