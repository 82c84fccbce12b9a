import Reckoner.Proofs.Decimal.Spelling

/-!
# What the text of a value tells

A float is known by its text, and so is a vector: a text of a float has no comma, so the two commas
in the text of a vector part its components (`Vec3.describe_injective`).  A text stands for itself,
and no float is written as a vector.  So values with one text are the same, unless exactly one of
them is a text (`Value.describe_eq_iff`).
-/

set_option autoImplicit false

namespace Reckoner

open Decimal

/-- What is before a separator and what is behind it are known, if there is none before it. -/
theorem append_separator_inj {α : Type} {separator : α} {before before' after after' : List α}
    (h : separator ∉ before) (h' : separator ∉ before')
    (heq : before ++ separator :: after = before' ++ separator :: after') :
    before = before' ∧ after = after' := by
  induction before generalizing before' with
  | nil =>
    cases before' with
    | nil => exact ⟨rfl, (List.cons.inj heq).2⟩
    | cons c cs => exact absurd (List.cons.inj heq).1 (List.ne_of_not_mem_cons h')
  | cons c cs ih =>
    cases before' with
    | nil => exact absurd (List.cons.inj heq).1.symm (List.ne_of_not_mem_cons h)
    | cons d ds =>
      obtain ⟨rfl, htail⟩ := List.cons.inj heq
      obtain ⟨rfl, hafter⟩ :=
        ih (List.not_mem_of_not_mem_cons h) (List.not_mem_of_not_mem_cons h') htail
      exact ⟨rfl, hafter⟩

/-! ## Vectors -/

namespace Vec3

theorem toList_describe (a : Vec3) : a.describe.toList =
    ['V', 'e', 'c', '3', 'D', '('] ++ ((realText a.x).toList ++ ',' :: ' ' ::
      ((realText a.y).toList ++ ',' :: ' ' :: ((realText a.z).toList ++ [')']))) := by
  simp [describe]

/-- **A vector is known by its text.** -/
theorem describe_injective {a b : Vec3} (h : a.describe = b.describe) : a = b := by
  have hcomma (x : Float) : ',' ∉ (realText x).toList :=
    fun hmem ↦ absurd (realText_subset x hmem) (by decide)
  have hchars := congrArg String.toList h
  rw [toList_describe, toList_describe, List.append_cancel_left_eq] at hchars
  obtain ⟨hx, hchars⟩ := append_separator_inj (hcomma _) (hcomma _) hchars
  obtain ⟨hy, hchars⟩ := append_separator_inj (hcomma _) (hcomma _) (List.cons.inj hchars).2
  have hz := List.append_cancel_right (List.cons.inj hchars).2
  cases a
  cases b
  exact congr (congrArg₂ Vec3.mk (realText_injective (String.toList_injective hx))
    (realText_injective (String.toList_injective hy)))
    (realText_injective (String.toList_injective hz))

/-- No float is written as a vector. -/
theorem describe_ne_realText (a : Vec3) (x : Float) : a.describe ≠ realText x := by
  intro h
  have hmem : 'V' ∈ (realText x).toList := by
    rw [← h, toList_describe]
    exact List.mem_cons_self
  exact absurd (realText_subset x hmem) (by decide)

end Vec3

/-! ## Values -/

namespace Value

/-- One of two values is a text, and the other is a scalar or a vector that is written so. -/
def Spelled (v w : Value) : Prop :=
  Xor (v.kind = .text) (w.kind = .text) ∧ v.describe = w.describe

/-- **What is written for a value tells it from all others but a text that spells it.** -/
theorem describe_eq_iff {v w : Value} : v.describe = w.describe ↔ v = w ∨ v.Spelled w := by
  constructor
  · intro h
    cases v with
    | scalar x =>
      cases w with
      | scalar y => exact .inl (congrArg scalar (realText_injective h))
      | vector b => exact absurd h.symm (b.describe_ne_realText x)
      | text t => exact .inr ⟨.inr ⟨rfl, by simp [kind]⟩, h⟩
    | vector a =>
      cases w with
      | scalar y => exact absurd h (a.describe_ne_realText y)
      | vector b => exact .inl (congrArg vector (Vec3.describe_injective h))
      | text t => exact .inr ⟨.inr ⟨rfl, by simp [kind]⟩, h⟩
    | text s =>
      cases w with
      | scalar y => exact .inr ⟨.inl ⟨rfl, by simp [kind]⟩, h⟩
      | vector b => exact .inr ⟨.inl ⟨rfl, by simp [kind]⟩, h⟩
      | text t => exact .inl (congrArg text h)
  · rintro (rfl | hspelled)
    · rfl
    · exact hspelled.2

/-- Only a text can break a line. -/
theorem not_mem_describe {v : Value} (h : ∀ s, v = .text s → '\n' ∉ s.toList) :
    '\n' ∉ v.describe.toList := by
  have hreal (x : Float) : '\n' ∉ (realText x).toList :=
    fun hmem ↦ absurd (realText_subset x hmem) (by decide)
  cases v with
  | scalar x => exact hreal x
  | vector a => simp [describe, Vec3.toList_describe, hreal]
  | text s => exact h s rfl

end Value

end Reckoner
