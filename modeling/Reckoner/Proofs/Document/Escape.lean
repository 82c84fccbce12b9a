import Reckoner.Document.Escape
import Mathlib.Tactic.IntervalCases

/-!
# Texts in documents are read back

A text that was written between its marks is read off as it was, whatever characters are in it, and
whatever follows.  The text is read one character after the other: `takeText?_escapedChar` says that
what was written for a character is read as the character, whatever was written behind it.

A character outside the basic plane is written as two units, and two units in a row are what a
reader looks for.  Two characters of one unit each are not mistaken for it, because no character is
half of a pair.
-/

set_option autoImplicit false

namespace Reckoner.Document

/-! ## Units -/

/-- The last of several hexadecimal digits stands behind those of the rest. -/
theorem hexDigits_succ {width n : Nat} (hwidth : 0 < width) :
    Text.hexDigits (width + 1) n =
      Text.hexDigits width (n / 16) ++ [Nat.digitChar (n % 16)] := by
  rw [Text.hexDigits, Nat.toDigits_eq_if (by omega)]
  split
  · next hlt =>
    rw [Nat.div_eq_of_lt hlt, Nat.mod_eq_of_lt hlt, Text.hexDigits, Nat.toDigits_zero]
    obtain ⟨width, rfl⟩ := Nat.exists_eq_succ_of_ne_zero hwidth.ne'
    simp [List.replicate_succ']
  · simp [Text.hexDigits]

theorem hexDigits_one {n : Nat} (h : n < 16) : Text.hexDigits 1 n = [Nat.digitChar n] := by
  rw [Text.hexDigits, Nat.toDigits_of_lt_base h]
  rfl

theorem hexDigits_four {n : Nat} (h : n < 0x10000) :
    Text.hexDigits 4 n =
      [Nat.digitChar (n / 16 / 16 / 16), Nat.digitChar (n / 16 / 16 % 16),
        Nat.digitChar (n / 16 % 16), Nat.digitChar (n % 16)] := by
  rw [hexDigits_succ (by omega), hexDigits_succ (by omega), hexDigits_succ (by omega),
    hexDigits_one (by omega)]
  rfl

theorem hexValue?_digitChar {n : Nat} (h : n < 16) : hexValue? (Nat.digitChar n) = some n := by
  interval_cases n <;> rfl

/-- Four digits stand for the unit that they were written for. -/
theorem unitValue?_hexDigits {n : Nat} (h : n < 0x10000) :
    unitValue? (Nat.digitChar (n / 16 / 16 / 16)) (Nat.digitChar (n / 16 / 16 % 16))
      (Nat.digitChar (n / 16 % 16)) (Nat.digitChar (n % 16)) = some n := by
  simp only [unitValue?, hexValue?_digitChar (show n / 16 / 16 / 16 < 16 by omega),
    hexValue?_digitChar (Nat.mod_lt _ (show 0 < 16 by omega)), Option.bind_eq_bind,
    Option.bind_some, Option.pure_def, Option.some.injEq]
  omega

/-! ## Characters -/

/-- No character has the code of half of a pair. -/
theorem toNat_bounds (c : Char) : c.toNat < 0xd800 ∨ 0xe000 ≤ c.toNat ∧ c.toNat < 0x110000 :=
  c.valid

theorem singleValue_toNat (c : Char) : singleValue c.toNat = c := by
  have hbounds := toNat_bounds c
  rw [singleValue, if_neg (by omega), Char.ofNat_toNat]

theorem pairValue?_toNat (c : Char) (low : Nat) : pairValue? c.toNat low = none := by
  have hbounds := toNat_bounds c
  rw [pairValue?, if_neg (by omega)]

theorem pairValue?_units (c : Char) (h : 0x10000 ≤ c.toNat) :
    pairValue? (0xd800 + (c.toNat - 0x10000) / 0x400) (0xdc00 + (c.toNat - 0x10000) % 0x400) =
      some c := by
  have hbounds := toNat_bounds c
  rw [pairValue?, if_pos (by omega)]
  have hcode : 0x10000 + (0xd800 + (c.toNat - 0x10000) / 0x400 - 0xd800) * 0x400 +
      (0xdc00 + (c.toNat - 0x10000) % 0x400 - 0xdc00) = c.toNat := by omega
  rw [hcode, Char.ofNat_toNat]

/-- Four characters that are no unit spoil the text. -/
theorem takeText?_of_unitValue?_eq_none {a b c d : Char} (h : unitValue? a b c d = none)
    (cs : List Char) : takeText? ('\\' :: 'u' :: a :: b :: c :: d :: cs) = none := by
  rw [takeText?.eq_def]
  split
  case h_2 heq | h_3 heq =>
    cases heq
    simp [h]
  case h_4 hnot heq =>
    cases heq
    exact (hnot a b c d cs rfl rfl).elim
  case h_5 heq =>
    cases heq
    rfl
  case h_1 heq | h_6 heq => simp at heq

/-- A unit that is no half of a pair is read as a character, whatever comes next. -/
theorem takeText?_unit {a b c d : Char} {n : Nat} (hunit : unitValue? a b c d = some n)
    (hpair : ∀ low, pairValue? n low = none) (cs : List Char) :
    takeText? ('\\' :: 'u' :: a :: b :: c :: d :: cs) =
      (takeText? cs).map (consChar (singleValue n)) := by
  rw [takeText?.eq_def]
  split
  case h_2 e f g h rest heq =>
    cases heq
    simp only [hunit, Option.bind_eq_bind, Option.bind_some]
    -- What follows are two units in a row, of which the second is read by itself.
    cases hsecond : unitValue? e f g h with
    | none => rw [takeText?_of_unitValue?_eq_none hsecond]; rfl
    | some low => simp only [Option.bind_some, hpair]
  case h_3 heq =>
    cases heq
    simp [hunit]
  case h_4 hnot heq =>
    cases heq
    exact (hnot a b c d cs rfl rfl).elim
  case h_5 hnot heq =>
    cases heq
    exact (hnot _ _ rfl rfl).elim
  case h_1 heq | h_6 heq => simp at heq

/-- Two units that make a pair are read as one character. -/
theorem takeText?_pair {a b c d e f g h character : Char} {high low : Nat}
    (hhigh : unitValue? a b c d = some high) (hlow : unitValue? e f g h = some low)
    (hpair : pairValue? high low = some character) (cs : List Char) :
    takeText? ('\\' :: 'u' :: a :: b :: c :: d :: '\\' :: 'u' :: e :: f :: g :: h :: cs) =
      (takeText? cs).map (consChar character) := by
  rw [takeText?]
  simp only [hhigh, hlow, hpair, Option.bind_eq_bind, Option.bind_some]

/-- What stands for itself is read as itself. -/
theorem takeText?_plain {c : Char} (hmark : c ≠ '"') (hslash : c ≠ '\\') (hcode : 0x20 ≤ c.toNat)
    (cs : List Char) : takeText? (c :: cs) = (takeText? cs).map (consChar c) := by
  rw [takeText?.eq_def]
  split
  case h_5 heq =>
    cases heq
    rw [if_neg (by simp [hslash, hcode])]
  case h_6 heq => cases heq
  all_goals simp_all

/-- A short form is read as its character. -/
theorem takeText?_short {c character : Char} (hunit : c ≠ 'u') (h : shortForm? c = some character)
    (cs : List Char) : takeText? ('\\' :: c :: cs) = (takeText? cs).map (consChar character) := by
  rw [takeText?.eq_def]
  split
  case h_4 heq =>
    cases heq
    simp [h]
  case h_5 hnot heq =>
    cases heq
    exact (hnot _ _ rfl rfl).elim
  all_goals simp_all

/-- **A character is read as it was written**, whatever comes next. -/
theorem takeText?_escapedChar (c : Char) (cs : List Char) :
    takeText? (escapedChar c ++ cs) = (takeText? cs).map (consChar c) := by
  unfold escapedChar
  split_ifs with hmark hslash hn hr ht hb hf hplain hunit
  · subst hmark; exact takeText?_short (by decide) rfl cs
  · subst hslash; exact takeText?_short (by decide) rfl cs
  · subst hn; exact takeText?_short (by decide) rfl cs
  · subst hr; exact takeText?_short (by decide) rfl cs
  · subst ht; exact takeText?_short (by decide) rfl cs
  · subst hb; exact takeText?_short (by decide) rfl cs
  · subst hf; exact takeText?_short (by decide) rfl cs
  · exact takeText?_plain hmark hslash hplain.1 cs
  · rw [escapedUnit, hexDigits_four hunit]
    exact (takeText?_unit (unitValue?_hexDigits hunit) (pairValue?_toNat c) cs).trans
      (by rw [singleValue_toNat])
  · have hbounds := toNat_bounds c
    rw [escapedUnit, escapedUnit, hexDigits_four (by omega), hexDigits_four (by omega)]
    exact takeText?_pair (unitValue?_hexDigits (by omega)) (unitValue?_hexDigits (by omega))
      (pairValue?_units c (Nat.not_lt.1 hunit)) cs

/-- **A text is read as it was written**, up to the mark at its end. -/
theorem takeText?_escapedChars (text cs : List Char) :
    takeText? (text.flatMap escapedChar ++ '"' :: cs) = some (text, cs) := by
  induction text with
  | nil => rfl
  | cons c text ih =>
    rw [List.flatMap_cons, List.append_assoc, takeText?_escapedChar, ih]
    rfl

end Reckoner.Document
