import Reckoner.Expr.Code
import Mathlib.Data.List.Basic

/-!
# What code tells about an expression

The reader asks of a tree whether it amounts to a variable (`Expr.target?`), and whether the operand
of a sign is a constant or has a sign itself.  Who has only the code of the expression can tell the
same from its instructions: `Expr.code_of_target?` and `Expr.exists_target?` for variables,
`negateCode_cases` for signs.
-/

set_option autoImplicit false

namespace Reckoner

/-- A sign is worked into a constant, cancels a sign, or is put behind all other code. -/
theorem negateCode_cases (position : Nat) (code : Code) :
    (∃ init value origin, code = init ++ [⟨.constant value, origin⟩] ∧
      negateCode position code = init ++ [⟨.constant value.opposite, position⟩]) ∨
    (∃ init origin, code = init ++ [⟨.negate, origin⟩] ∧ negateCode position code = init) ∨
    ((∀ init origin, code ≠ init ++ [⟨.negate, origin⟩]) ∧
      negateCode position code = code ++ [⟨.negate, position⟩]) := by
  obtain rfl | ⟨init, ⟨operation, origin⟩, rfl⟩ := List.eq_nil_or_concat' code
  · exact .inr (.inr ⟨by simp, rfl⟩)
  by_cases hconstant : ∃ value, operation = .constant value
  · obtain ⟨value, rfl⟩ := hconstant
    exact .inl ⟨init, value, origin, rfl, negateCode_constant position init value origin⟩
  by_cases hnegate : operation = .negate
  · subst hnegate
    exact .inr (.inl ⟨init, origin, rfl, negateCode_negate position init origin⟩)
  · refine .inr (.inr ⟨fun init' origin' heq ↦ hnegate ?_, negateCode_other position init origin
      (fun value hvalue ↦ hconstant ⟨value, hvalue⟩) hnegate⟩)
    exact congrArg Instruction.operation (List.cons.inj (List.append_inj_right' heq rfl)).1

namespace Expr

mutual

/-- The constants of an expression come from numerals. -/
theorem scalar_of_mem_code : ∀ (e : Expr) {value : Value} {position : Int},
    ⟨.constant value, position⟩ ∈ e.code → ∃ x, value = .scalar x
  | number numeral _, value, position, h => by
    obtain ⟨rfl, _⟩ : value = numberValue numeral ∧ _ := by simpa [code] using h
    exact ⟨_, rfl⟩
  | name _, value, position, h => by simp [code] at h
  | call f _ es, value, position, h => by
    have hes : ⟨.constant value, position⟩ ∈ codeOfAll es := by simpa [code] using h
    exact scalar_of_mem_codeOfAll es hes
  | group _ inner, value, position, h => scalar_of_mem_code inner h
  | negate place operand, value, position, h => by
    have hoperand : ∀ {v p}, ⟨.constant v, p⟩ ∈ operand.code → ∃ x, v = .scalar x :=
      scalar_of_mem_code operand
    rw [code] at h
    rcases negateCode_cases place operand.code with ⟨init, v, p, hcode, hnegate⟩ |
      ⟨init, p, hcode, hnegate⟩ | ⟨_, hnegate⟩ <;> rw [hnegate] at h
    · rw [hcode] at hoperand
      rcases List.mem_append.1 h with hmem | hmem
      · exact hoperand (List.mem_append_left _ hmem)
      · obtain ⟨x, rfl⟩ := hoperand (List.mem_append_right init (List.mem_singleton_self _))
        cases List.mem_singleton.1 hmem
        exact ⟨-x, rfl⟩
    · exact hoperand (hcode ▸ List.mem_append_left _ h)
    · exact hoperand (by simpa using h)
  | binary _ _ left right, value, position, h => by
    have hmem : ⟨.constant value, position⟩ ∈ left.code ∨
        ⟨.constant value, position⟩ ∈ right.code := by simpa [code] using h
    exact hmem.elim (scalar_of_mem_code left) (scalar_of_mem_code right)
  | assign _ e, value, position, h => by
    have hmem : ⟨.constant value, position⟩ ∈ e.code := by simpa [code] using h
    exact scalar_of_mem_code e hmem

theorem scalar_of_mem_codeOfAll : ∀ (es : List Expr) {value : Value} {position : Int},
    ⟨.constant value, position⟩ ∈ codeOfAll es → ∃ x, value = .scalar x
  | [], value, position, h => by simp [codeOfAll] at h
  | e :: es, value, position, h => by
    rw [codeOfAll, List.mem_append] at h
    exact h.elim (scalar_of_mem_code e) (scalar_of_mem_codeOfAll es)

end

mutual

/-- The code of what amounts to a variable loads it. -/
theorem code_of_target? : ∀ {e : Expr} {r : Reference}, e.target? = some r →
    e.code = [⟨.load r.slot, r.position⟩]
  | name _, _, rfl => rfl
  | group _ inner, _, h => code_of_target? (e := inner) h
  | negate position operand, r, h => by
    obtain ⟨origin, hcode⟩ := code_of_negatedTarget? (e := operand) h
    rw [code, hcode]
    exact negateCode_negate position [⟨.load r.slot, r.position⟩] origin

theorem code_of_negatedTarget? : ∀ {e : Expr} {r : Reference}, e.negatedTarget? = some r →
    ∃ position : Int, e.code = [⟨.load r.slot, r.position⟩, ⟨.negate, position⟩]
  | group _ inner, _, h => code_of_negatedTarget? (e := inner) h
  | negate position operand, r, h => by
    refine ⟨position, ?_⟩
    rw [code, code_of_target? (e := operand) h]
    rfl

end

/-- Of two signs that follow each other none is left. -/
theorem code_ne_negate_negate : ∀ (e : Expr) (init : Code) (position origin : Int),
    e.code ≠ init ++ [⟨.negate, position⟩] ++ [⟨.negate, origin⟩]
  | number _ _, init, _, _, h | name _, init, _, _, h | call _ _ _, init, _, _, h
  | binary _ _ _ _, init, _, _, h | assign _ _, init, _, _, h => by
    simpa [code] using congrArg List.getLast? h
  | group _ inner, init, _, _, h => code_ne_negate_negate inner init _ _ h
  | negate place operand, init, position, origin, h => by
    rw [code] at h
    rcases negateCode_cases place operand.code with ⟨_, _, _, _, hnegate⟩ |
      ⟨_, origin', hcode, hnegate⟩ | ⟨hne, hnegate⟩ <;> rw [hnegate] at h
    · simpa using congrArg List.getLast? h
    · exact code_ne_negate_negate operand (init ++ [⟨.negate, position⟩]) origin origin' (h ▸ hcode)
    · exact hne init position (List.append_inj_left' h rfl)

mutual

/-- An expression whose code loads a variable amounts to it. -/
theorem exists_target? : ∀ {e : Expr} {slot position : Int}, e.code = [⟨.load slot, position⟩] →
    ∃ r, e.target? = some r
  | name r, _, _, _ => ⟨r, rfl⟩
  | number _ _, _, _, h | call _ _ _, _, _, h | binary _ _ _ _, _, _, h | assign _ _, _, _, h => by
    simpa [code] using congrArg List.getLast? h
  | group _ inner, _, _, h => exists_target? (e := inner) h
  | negate place operand, slot, position, h => by
    rw [code] at h
    rcases negateCode_cases place operand.code with ⟨_, _, _, _, hnegate⟩ |
      ⟨_, _, hcode, hnegate⟩ | ⟨_, hnegate⟩ <;> rw [hnegate] at h
    · simpa using congrArg List.getLast? h
    · exact exists_negatedTarget? (e := operand) (h ▸ hcode)
    · simpa using congrArg List.getLast? h

theorem exists_negatedTarget? : ∀ {e : Expr} {slot position origin : Int},
    e.code = [⟨.load slot, position⟩] ++ [⟨.negate, origin⟩] → ∃ r, e.negatedTarget? = some r
  | number _ _, _, _, _, h | name _, _, _, _, h | call _ _ _, _, _, _, h
  | binary _ _ _ _, _, _, _, h | assign _ _, _, _, _, h => by
    simpa [code] using congrArg List.getLast? h
  | group _ inner, _, _, _, h => exists_negatedTarget? (e := inner) h
  | negate place operand, slot, position, origin, h => by
    rw [code] at h
    rcases negateCode_cases place operand.code with ⟨_, _, _, _, hnegate⟩ |
      ⟨_, origin', hcode, hnegate⟩ | ⟨_, hnegate⟩ <;> rw [hnegate] at h
    · simpa using congrArg List.getLast? h
    · have hne := code_ne_negate_negate operand [⟨.load slot, position⟩] origin origin'
      exact absurd (h ▸ hcode) hne
    · exact exists_target? (e := operand) (List.append_inj_left' h rfl)

end

end Expr

end Reckoner
