import Reckoner.Expr.Code
import Reckoner.Proofs.Program.Depth
import Reckoner.Proofs.Value.Sign

/-!
# Signs that are worked into code

Where every sign is an instruction, signs stand in rows behind instructions of other kinds.
`Signed` is an instruction with its row.  `Signed.plain` writes the row out, and `Signed.folded`
works it in, a sign at a time, as `negateCode` does.

* A row before a scalar or a vector makes no difference, because two signs leave the value as it was
  (`exec_foldSigns_nil`).
* A row before a text fails at its first sign when it is written out.  When it is worked in, pairs
  of signs have gone: an odd row fails at its last sign, and an even row is not there.

`Signed.exec_foldedAll` compares the two for code, and `Signed.run_foldedAll` for a whole run: they
do the same up to the first row of signs before a text.
-/

set_option autoImplicit false

namespace Reckoner

/-! ## Rows of signs -/

/-- Signs at several positions, as instructions. -/
def signCode (signs : List Nat) : Code := signs.map fun (p : Nat) ↦ ⟨.negate, p⟩

/-- Works signs into code, one after the other. -/
def foldSigns (code : Code) (signs : List Nat) : Code :=
  signs.foldl (fun code p ↦ negateCode p code) code

theorem foldSigns_concat (code : Code) (signs : List Nat) (p : Nat) :
    foldSigns code (signs ++ [p]) = negateCode p (foldSigns code signs) := by
  rw [foldSigns, List.foldl_append]
  rfl

/-- Of a row of signs alone, the last one is left if their number is odd. -/
theorem foldSigns_nil (signs : List Nat) :
    (Even signs.length → foldSigns [] signs = []) ∧
      (Odd signs.length →
        ∃ last, signs.getLast? = some last ∧ foldSigns [] signs = [⟨.negate, last⟩]) := by
  induction signs using List.reverseRecOn with
  | nil => exact ⟨fun _ ↦ rfl, fun hodd ↦ absurd hodd (by decide)⟩
  | append_singleton signs p ih =>
    rw [List.length_append, List.length_singleton, Nat.even_add_one, Nat.odd_add_one,
      Nat.not_even_iff_odd, Nat.not_odd_iff_even, foldSigns_concat, List.getLast?_concat]
    refine ⟨fun hodd ↦ ?_, fun heven ↦ ⟨p, rfl, ?_⟩⟩
    · obtain ⟨last, _, hlast⟩ := ih.2 hodd
      rw [hlast]
      exact negateCode_negate p [] last
    · rw [ih.1 heven]
      rfl

theorem foldSigns_constant (v : Value) (origin : Int) (signs : List Nat) :
    ∃ origin', foldSigns [⟨.constant v, origin⟩] signs =
      [⟨.constant (Value.opposite^[signs.length] v), origin'⟩] := by
  induction signs using List.reverseRecOn with
  | nil => exact ⟨origin, rfl⟩
  | append_singleton signs p ih =>
    obtain ⟨origin', horigin'⟩ := ih
    refine ⟨p, ?_⟩
    rw [foldSigns_concat, horigin', List.length_append, List.length_singleton,
      Function.iterate_succ_apply']
    exact negateCode_constant p [] _ _

/-- Behind all other instructions the signs keep to themselves. -/
theorem foldSigns_other {i : Instruction} (hconstant : ∀ v, i.operation ≠ .constant v)
    (hnegate : i.operation ≠ .negate) (signs : List Nat) :
    foldSigns [i] signs = i :: foldSigns [] signs := by
  induction signs using List.reverseRecOn with
  | nil => rfl
  | append_singleton signs p ih =>
    rw [foldSigns_concat, foldSigns_concat, ih]
    rcases Nat.even_or_odd signs.length with heven | hodd
    · rw [(foldSigns_nil signs).1 heven]
      exact negateCode_other p [] i.position hconstant hnegate
    · obtain ⟨last, _, hlast⟩ := (foldSigns_nil signs).2 hodd
      have hcancel : negateCode p [⟨.negate, last⟩] = [] := negateCode_negate p [] last
      rw [hlast, hcancel]
      exact negateCode_negate p [i] last

variable {functions : List Builtin} {stack : Stack} {env : Environment}

/-- Signs before a value that has a negative turn it over as often as there are signs. -/
theorem exec_signCode {a : Value} (h : a.negate = .ok a.opposite) (signs : List Nat) :
    Code.exec functions (signCode signs) (a :: stack) env =
      (.ok (Value.opposite^[signs.length] a :: stack), env) := by
  induction signs generalizing a with
  | nil => rfl
  | cons p signs ih =>
    have hopposite : a.opposite.negate = .ok a.opposite.opposite := by
      rw [Value.opposite_opposite, Value.negate_negate h]
    rw [List.length_cons, Function.iterate_succ_apply, ← ih hopposite]
    rw [signCode, List.map_cons, Code.exec_cons, Instruction.exec, Operation.step, h]
    rfl

/-- Before a value that has a negative, pairs of signs make no difference. -/
theorem exec_foldSigns_nil {a : Value} (h : a.negate = .ok a.opposite) (signs : List Nat) :
    Code.exec functions (foldSigns [] signs) (a :: stack) env =
      Code.exec functions (signCode signs) (a :: stack) env := by
  have hinvolutive : Function.Involutive Value.opposite := Value.opposite_opposite
  rw [exec_signCode h]
  rcases Nat.even_or_odd signs.length with heven | hodd
  · rw [(foldSigns_nil signs).1 heven, hinvolutive.iterate_even heven]
    rfl
  · obtain ⟨last, _, hlast⟩ := (foldSigns_nil signs).2 hodd
    rw [hlast, hinvolutive.iterate_odd hodd]
    exact exec_signCode h [last]

/-- A row of signs before a text fails at its first sign. -/
theorem exec_signCode_text (s : String) (first : Nat) (signs : List Nat) :
    Code.exec functions (signCode (first :: signs)) (.text s :: stack) env =
      (.error (.eval (.noNegative .text) (some first)), env) := rfl

/-! ## Instructions with their signs -/

/-- An instruction that is not a sign, and the positions of the signs behind it. -/
structure Signed where
  instruction : Instruction
  /-- The positions of the signs, in the order of the code. -/
  signs : List Nat
  /-- The row of signs is complete. -/
  not_sign : instruction.operation ≠ .negate
  /-- Constants have negatives. -/
  constant : ∀ v, instruction.operation = .constant v → v.negate = .ok v.opposite

namespace Signed

/-- The code in which the signs are instructions. -/
def plain (g : Signed) : Code := g.instruction :: signCode g.signs

/-- The code in which the signs are worked in. -/
def folded (g : Signed) : Code := foldSigns [g.instruction] g.signs

/-- The code in which the signs of several instructions are instructions. -/
def plainAll (gs : List Signed) : Code := gs.flatMap plain

/-- The code in which the signs of several instructions are worked in. -/
def foldedAll (gs : List Signed) : Code := gs.flatMap folded

theorem exec_folded (g : Signed) :
    Code.exec functions g.folded stack env =
      (g.instruction.exec functions stack env).andThen
        (Code.exec functions (foldSigns [] g.signs)) := by
  obtain ⟨⟨operation, origin⟩, signs, hnegate, hconstant⟩ := g
  by_cases h : ∃ v, operation = .constant v
  · -- The constant takes the signs, and with them the value that signs behind it would give it.
    obtain ⟨v, rfl⟩ := h
    have hv := hconstant v rfl
    obtain ⟨origin', hfold⟩ := foldSigns_constant v origin signs
    rw [folded, hfold]
    show _ = Code.exec functions (foldSigns [] signs) (v :: stack) env
    rw [exec_foldSigns_nil hv, exec_signCode hv]
    rfl
  · rw [folded, foldSigns_other (fun v hv ↦ h ⟨v, hv⟩) hnegate, Code.exec_cons]

/-- Signs stand before a text, or else their code does the same whether they are worked in or
not. -/
theorem exec_signs (functions : List Builtin) (env : Environment) (signs : List Nat)
    (hsupplied : Code.Supplied (signCode signs) stack.length) :
    (∃ s rest, signs ≠ [] ∧ stack = .text s :: rest) ∨
      ∃ stack', Code.exec functions (foldSigns [] signs) stack env = (.ok stack', env) ∧
        Code.exec functions (signCode signs) stack env = (.ok stack', env) := by
  cases signs with
  | nil => exact .inr ⟨stack, rfl, rfl⟩
  | cons p signs =>
    have hnegative : ∀ (a : Value) (rest : Stack), a.negate = .ok a.opposite →
        ∃ stack', Code.exec functions (foldSigns [] (p :: signs)) (a :: rest) env =
            (.ok stack', env) ∧
          Code.exec functions (signCode (p :: signs)) (a :: rest) env = (.ok stack', env) :=
      fun a rest ha ↦ ⟨_, (exec_foldSigns_nil ha _).trans (exec_signCode ha _), exec_signCode ha _⟩
    match stack with
    | [] => exact absurd hsupplied.1.2 (by simp [Operation.operands])
    | .text s :: rest => exact .inl ⟨s, rest, List.cons_ne_nil _ _, rfl⟩
    | .scalar x :: rest => exact .inr (hnegative (.scalar x) rest rfl)
    | .vector a :: rest => exact .inr (hnegative (.vector a) rest rfl)

/-- Where a row of signs stands before a text. -/
structure Halt (functions : List Builtin) (gs : List Signed) (stack : Stack) (env : Environment)
    (before : List Signed) (g : Signed) (after : List Signed) (s : String) (rest : Stack)
    (env' : Environment) : Prop where
  /-- The place of the row. -/
  split : gs = before ++ g :: after
  /-- There are signs in it. -/
  signs : g.signs ≠ []
  /-- The text is what they stand before. -/
  text : Code.exec functions (plainAll before ++ [g.instruction]) stack env =
    (.ok (.text s :: rest), env')

/-- What stands before a row of signs has been executed. -/
theorem Halt.cons {gs before after : List Signed} {g h : Signed} {s : String}
    {stack' rest : Stack} {env' env'' : Environment}
    (hhalt : Halt functions gs stack' env' before h after s rest env'')
    (hg : Code.exec functions g.plain stack env = (.ok stack', env')) :
    Halt functions (g :: gs) stack env (g :: before) h after s rest env'' := by
  refine ⟨by rw [hhalt.split, List.cons_append], hhalt.signs, ?_⟩
  rw [plainAll, List.flatMap_cons, List.append_assoc, Code.exec_append, hg]
  exact hhalt.text

/-- **Up to the first row of signs before a text, it makes no difference whether signs are worked in
or not.** -/
theorem exec_foldedAll (gs : List Signed) (hsupplied : Code.Supplied (plainAll gs) stack.length) :
    Code.exec functions (foldedAll gs) stack env = Code.exec functions (plainAll gs) stack env ∨
      ∃ before g after s rest env', Halt functions gs stack env before g after s rest env' ∧
        Code.exec functions (foldedAll gs) stack env =
          (Code.exec functions (foldSigns [] g.signs) (.text s :: rest) env').andThen
            (Code.exec functions (foldedAll after)) := by
  induction gs generalizing stack env with
  | nil => exact .inl rfl
  | cons g gs ih =>
    rw [plainAll, List.flatMap_cons, Code.supplied_append] at hsupplied
    obtain ⟨hg, hgs⟩ := hsupplied
    rw [plainAll, foldedAll, List.flatMap_cons, List.flatMap_cons, Code.exec_append,
      Code.exec_append, exec_folded]
    have hplain : Code.exec functions g.plain stack env =
        (g.instruction.exec functions stack env).andThen (Code.exec functions (signCode g.signs)) :=
      rfl
    rcases hi : g.instruction.exec functions stack env with ⟨fault | stack₁, env₁⟩
    · rw [hplain, hi]
      exact .inl rfl
    · have hlength : (stack₁.length : Int) = stack.length + g.instruction.operation.effect := by
        have hsingle : Code.Supplied [g.instruction] stack.length := ⟨hg.1, trivial⟩
        have hone := Code.length_exec hsingle ((Code.exec_singleton functions _ _ _).trans hi)
        simpa using hone
      rw [Outcome.andThen_ok]
      rcases exec_signs functions env₁ g.signs (hlength ▸ hg.2) with
        ⟨s, rest, hsigns, rfl⟩ | ⟨stack₂, hfold, hsign⟩
      · refine .inr ⟨[], g, gs, s, rest, env₁, ⟨rfl, hsigns, ?_⟩, rfl⟩
        exact (Code.exec_singleton functions _ _ _).trans hi
      · rw [hi, Outcome.andThen_ok, hsign] at hplain
        have hlength₂ := Code.length_exec hg hplain
        rw [hfold, hplain]
        rcases @ih stack₂ env₁ (hlength₂ ▸ hgs) with heq |
          ⟨before, h, after, s, rest, env', hhalt, hexec⟩
        · exact .inl heq
        · exact .inr ⟨g :: before, h, after, s, rest, env', hhalt.cons hplain, hexec⟩

/-- **What working signs in does to a run.**  Nothing, up to the first row of signs before a text.
There the run of the code in which signs are written out fails at the first sign of the row.  If the
number of signs is odd, the other run fails there too, with the same cause, at the last sign; if it
is even, the other run goes on with the text. -/
theorem run_foldedAll (gs : List Signed) (hsupplied : Code.Supplied (plainAll gs) stack.length) :
    Code.run functions (foldedAll gs) stack env = Code.run functions (plainAll gs) stack env ∨
      ∃ before g after s rest env', Halt functions gs stack env before g after s rest env' ∧
        (∃ first, g.signs.head? = some first ∧ Code.run functions (plainAll gs) stack env =
          (.error (.eval (.noNegative .text) (some first)), env')) ∧
        (Odd g.signs.length → ∃ last, g.signs.getLast? = some last ∧
          Code.run functions (foldedAll gs) stack env =
            (.error (.eval (.noNegative .text) (some last)), env')) ∧
        (Even g.signs.length → Code.run functions (foldedAll gs) stack env =
          Code.run functions (foldedAll after) (.text s :: rest) env') := by
  simp only [Code.run_eq_exec]
  rcases exec_foldedAll gs hsupplied with heq | ⟨before, g, after, s, rest, env', hhalt, hexec⟩
  · exact .inl (by rw [heq])
  refine .inr ⟨before, g, after, s, rest, env', hhalt, ?_, fun hodd ↦ ?_, fun heven ↦ ?_⟩
  · obtain ⟨first, signs, hsigns⟩ := List.exists_cons_of_ne_nil hhalt.signs
    refine ⟨first, by rw [hsigns]; rfl, ?_⟩
    have hcode : plainAll gs =
        (plainAll before ++ [g.instruction]) ++ (signCode g.signs ++ plainAll after) := by
      rw [hhalt.split, plainAll, List.flatMap_append, List.flatMap_cons, plain]
      simp [plainAll]
    rw [hcode, Code.exec_append, hhalt.text, Outcome.andThen_ok, Code.exec_append, hsigns,
      exec_signCode_text]
    rfl
  · obtain ⟨last, hlast, hfold⟩ := (foldSigns_nil g.signs).2 hodd
    refine ⟨last, hlast, ?_⟩
    rw [hexec, hfold]
    rfl
  · rw [hexec, (foldSigns_nil g.signs).1 heven, Code.exec_nil, Outcome.andThen_ok]

end Signed

end Reckoner
