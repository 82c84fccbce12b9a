import Reckoner.Decimal.Shortest
import Mathlib

/-!
# The reals that round to a float

A float has its magnitude in one form (`Binary.Canonical`): the mantissa is below `2 ^ 53`, and it
is below `2 ^ 52` only with the least exponent.  The reals that round to it make an interval, whose
ends belong to it exactly if the mantissa is even (`Binary.Rounds`).

* No real rounds to two magnitudes (`Binary.Rounds.unique`).  Where two intervals meet, one of the
  mantissas is odd.
* A multiple of a power of ten that the search answers rounds to the magnitude
  (`Binary.rounds_of_inside`).
* Seventeen digits are enough: the grid of the last of them has a point less than half a place away,
  and a quarter of a place where the interval is narrower (`Binary.exists_onGrid`).

So the shortest decimal of a magnitude rounds to it, and to no other (`Binary.rounds_shortest`).
-/

set_option autoImplicit false

namespace Reckoner.Decimal

/-- The real that a decimal stands for. -/
def Scaled.value (s : Scaled) : ℚ := s.digits * 10 ^ s.exponent

namespace Binary

variable {b b' : Binary} {v : ℚ}

/-! ## Intervals -/

/-- A quarter of the last place. -/
def quarter (b : Binary) : ℚ := 2 ^ (b.exponent - 2)

/-- The real that a magnitude stands for. -/
def value (b : Binary) : ℚ := b.mantissa * 2 ^ b.exponent

/-- A magnitude in the form in which a float has it. -/
structure Canonical (b : Binary) : Prop where
  least : leastExponent ≤ b.exponent
  below : b.mantissa < 2 ^ 53
  full : leastExponent < b.exponent → 2 ^ 52 ≤ b.mantissa

/-- A real rounds to a magnitude. -/
structure Rounds (b : Binary) (v : ℚ) : Prop where
  low_le : b.low * b.quarter ≤ v
  le_high : v ≤ b.high * b.quarter
  /-- The ends belong to the interval only if the mantissa is even. -/
  between : b.mantissa % 2 = 1 → b.low * b.quarter < v ∧ v < b.high * b.quarter

theorem quarter_pos (b : Binary) : 0 < b.quarter := zpow_pos (by norm_num) _

theorem value_eq (b : Binary) : b.value = 4 * b.mantissa * b.quarter := by
  have hpow : (2 : ℚ) ^ b.exponent = 2 ^ (b.exponent - 2) * 2 ^ (2 : ℤ) := by
    rw [← zpow_add₀ (by norm_num), Int.sub_add_cancel]
  rw [value, quarter, hpow]
  norm_num
  ring

/-- The interval of a positive magnitude is behind zero. -/
theorem Rounds.pos (h : b.Rounds v) (hpos : 0 < b.mantissa) : 0 < v := by
  have hlow : 0 < b.low := by
    rw [low]
    split <;> omega
  exact (mul_pos (Nat.cast_pos.2 hlow) b.quarter_pos).trans_le h.low_le

/-- If a real rounds to two magnitudes, the interval of the first ends where that of the second has
begun, and behind it if a mantissa is odd. -/
theorem Rounds.low_le_high (h : b.Rounds v) (h' : b'.Rounds v) {n : ℕ}
    (hn : b'.exponent = b.exponent + n) :
    b'.low * 2 ^ n ≤ b.high ∧
      (b.mantissa % 2 = 1 ∨ b'.mantissa % 2 = 1 → b'.low * 2 ^ n < b.high) := by
  have hquarter : b'.quarter = 2 ^ n * b.quarter := by
    rw [quarter, quarter, hn, ← zpow_natCast, ← zpow_add₀ (by norm_num)]
    ring_nf
  have hscaled : (b'.low : ℚ) * b'.quarter = ((b'.low * 2 ^ n : ℕ) : ℚ) * b.quarter := by
    rw [hquarter]
    push_cast
    ring
  have hlow := h'.low_le
  have hodd := h'.between
  rw [hscaled] at hlow hodd
  constructor
  · exact_mod_cast le_of_mul_le_mul_right (hlow.trans h.le_high) b.quarter_pos
  · intro hmantissa
    have hlt : ((b'.low * 2 ^ n : ℕ) : ℚ) * b.quarter < b.high * b.quarter := by
      rcases hmantissa with hmantissa | hmantissa
      · exact hlow.trans_lt (h.between hmantissa).2
      · exact (hodd hmantissa).1.trans_le h.le_high
    exact_mod_cast lt_of_mul_lt_mul_right hlt b.quarter_pos.le

/-- A real rounds to no magnitude with a greater exponent. -/
theorem Rounds.not_lt (hb : b.Canonical) (hb' : b'.Canonical) (h : b.Rounds v) (h' : b'.Rounds v) :
    ¬b.exponent < b'.exponent := by
  intro hlt
  obtain ⟨n, hn⟩ : ∃ n : ℕ, b'.exponent = b.exponent + (n + 1 : ℕ) :=
    ⟨(b'.exponent - b.exponent - 1).toNat, by omega⟩
  obtain ⟨hle, hodd⟩ := h.low_le_high h' hn
  have hfull := hb'.full (hb.least.trans_lt hlt)
  have hbelow := hb.below
  have htwo : b'.low * 2 ≤ b'.low * 2 ^ (n + 1) :=
    Nat.mul_le_mul_left _ (Nat.le_self_pow (Nat.succ_ne_zero n) 2)
  have hlow : 2 ^ 55 - 2 ≤ b'.low * 2 := by
    rw [low]
    split
    · omega
    · next hnot =>
      have hne : b'.mantissa ≠ 2 ^ 52 := fun heq ↦ hnot ⟨heq, hb.least.trans_lt hlt⟩
      omega
  have hhigh : b.high = 4 * b.mantissa + 2 := rfl
  omega

/-- **No real rounds to two magnitudes.** -/
theorem Rounds.unique (hb : b.Canonical) (hb' : b'.Canonical) (h : b.Rounds v)
    (h' : b'.Rounds v) : b = b' := by
  have hexponent : b.exponent = b'.exponent := by
    have hnot := Rounds.not_lt hb hb' h h'
    have hnot' := Rounds.not_lt hb' hb h' h
    omega
  have hlow (c : Binary) : 4 * c.mantissa - 2 ≤ c.low := by
    rw [low]
    split <;> omega
  obtain ⟨hle, hodd⟩ := h.low_le_high h' (n := 0) (by simpa using hexponent.symm)
  obtain ⟨hle', hodd'⟩ := h'.low_le_high h (n := 0) (by simpa using hexponent)
  have hhigh : b.high = 4 * b.mantissa + 2 := rfl
  have hhigh' : b'.high = 4 * b'.mantissa + 2 := rfl
  have hmantissa : b.mantissa = b'.mantissa := by
    have hb := hlow b
    have hb' := hlow b'
    omega
  cases b
  cases b'
  exact congrArg₂ Binary.mk hmantissa hexponent

/-! ## Grids -/

/-- What a quarter of the last place is multiplied by to make it whole beside a power of ten. -/
def gridUp (b : Binary) (k : Int) : ℕ := 2 ^ (b.exponent - 2).toNat * 10 ^ (-k).toNat

/-- What the power of ten is then. -/
def gridUnit (b : Binary) (k : Int) : ℕ := 2 ^ (2 - b.exponent).toNat * 10 ^ k.toNat

/-- What both are multiplied by. -/
def gridFactor (b : Binary) (k : Int) : ℚ := 2 ^ (2 - b.exponent).toNat * 10 ^ (-k).toNat

theorem gridFactor_pos (b : Binary) (k : Int) : 0 < b.gridFactor k :=
  mul_pos (pow_pos (by norm_num) _) (pow_pos (by norm_num) _)

theorem zpow_mul_pow_toNat {a : ℚ} (ha : a ≠ 0) (n : Int) :
    a ^ n * a ^ (-n).toNat = a ^ n.toNat := by
  rw [← zpow_natCast, ← zpow_natCast, ← zpow_add₀ ha]
  congr 1
  omega

theorem quarter_mul_gridFactor (b : Binary) (k : Int) :
    b.quarter * b.gridFactor k = b.gridUp k := by
  have hpow := zpow_mul_pow_toNat (a := 2) (by norm_num) (b.exponent - 2)
  rw [neg_sub] at hpow
  rw [quarter, gridFactor, gridUp, ← mul_assoc, hpow]
  push_cast
  rfl

theorem pow_mul_gridFactor (b : Binary) (k : Int) : 10 ^ k * b.gridFactor k = b.gridUnit k := by
  have hpow := zpow_mul_pow_toNat (a := 10) (by norm_num) k
  rw [gridFactor, gridUnit, mul_left_comm, hpow]
  push_cast
  rfl

/-- The search on one grid: the point below the magnitude and the one above it. -/
theorem onGrid_eq (b : Binary) (k : Int) :
    b.onGrid k =
      let value := 4 * b.mantissa * b.gridUp k
      let below := value / b.gridUnit k
      let hits := fun point ↦
        b.inside (b.low * b.gridUp k) (point * b.gridUnit k) (b.high * b.gridUp k)
      match hits below, hits (below + 1) with
      | false, false => none
      | true, false => some below
      | false, true => some (below + 1)
      | true, true =>
        let down := value - below * b.gridUnit k
        let above := (below + 1) * b.gridUnit k - value
        if down < above ∨ (down = above ∧ below % 2 = 0) then some below else some (below + 1) :=
  rfl

/-- A point that the search answers is a hit. -/
theorem inside_of_onGrid {k : Int} {digits : ℕ} (h : b.onGrid k = some digits) :
    b.inside (b.low * b.gridUp k) (digits * b.gridUnit k) (b.high * b.gridUp k) = true := by
  rw [onGrid_eq] at h
  dsimp only at h
  split at h
  · cases h
  · next hbelow _ =>
    cases h
    exact hbelow
  · next _ habove =>
    cases h
    exact habove
  · next hbelow habove =>
    split_ifs at h
    · cases h
      exact hbelow
    · cases h
      exact habove

/-- A hit rounds to the magnitude. -/
theorem rounds_of_inside {k : Int} {digits : ℕ}
    (h : b.inside (b.low * b.gridUp k) (digits * b.gridUnit k) (b.high * b.gridUp k) = true) :
    b.Rounds (digits * 10 ^ k) := by
  have hfactor := b.gridFactor_pos k
  have hpoint : (digits : ℚ) * 10 ^ k * b.gridFactor k = ((digits * b.gridUnit k : ℕ) : ℚ) := by
    rw [mul_assoc, pow_mul_gridFactor]
    push_cast
    rfl
  have hend (n : ℕ) : (n : ℚ) * b.quarter * b.gridFactor k = ((n * b.gridUp k : ℕ) : ℚ) := by
    rw [mul_assoc, quarter_mul_gridFactor]
    push_cast
    rfl
  have hle (n : ℕ) : (n : ℚ) * b.quarter ≤ digits * 10 ^ k ↔
      n * b.gridUp k ≤ digits * b.gridUnit k := by
    rw [← mul_le_mul_iff_of_pos_right hfactor, hpoint, hend, Nat.cast_le]
  have hge (n : ℕ) : (digits : ℚ) * 10 ^ k ≤ n * b.quarter ↔
      digits * b.gridUnit k ≤ n * b.gridUp k := by
    rw [← mul_le_mul_iff_of_pos_right hfactor, hpoint, hend, Nat.cast_le]
  rw [inside] at h
  split at h
  · next heven =>
    obtain ⟨hlow, hhigh⟩ := of_decide_eq_true h
    exact ⟨(hle _).2 hlow, (hge _).2 hhigh, fun hodd ↦ by omega⟩
  · obtain ⟨hlow, hhigh⟩ := of_decide_eq_true h
    refine ⟨(hle _).2 hlow.le, (hge _).2 hhigh.le, fun _ ↦ ⟨?_, ?_⟩⟩
    · exact lt_of_not_ge fun hnot ↦ hlow.not_ge ((hge _).1 hnot)
    · exact lt_of_not_ge fun hnot ↦ hhigh.not_ge ((hle _).1 hnot)

theorem inside_of_lt {low point high : ℕ} (hlow : low < point) (hhigh : point < high) :
    b.inside low point high = true := by
  rw [inside]
  split
  · exact decide_eq_true ⟨hlow.le, hhigh.le⟩
  · exact decide_eq_true ⟨hlow, hhigh⟩

/-- The nearer one of two neighbours on a grid is less than half of a spacing away. -/
theorem inside_or_inside {low value high half unit : ℕ} (hlow : low + half = value)
    (hhigh : value + half ≤ high) (hunit : 0 < unit) (h : unit < 2 * half) :
    b.inside low (value / unit * unit) high = true ∨
      b.inside low ((value / unit + 1) * unit) high = true := by
  have hdivision := Nat.div_add_mod' value unit
  have hrest := Nat.mod_lt value hunit
  rw [Nat.add_mul _ 1, Nat.one_mul]
  by_cases hnear : 2 * (value % unit) ≤ unit
  · exact .inl (inside_of_lt (by omega) (by omega))
  · exact .inr (inside_of_lt (by omega) (by omega))

/-- A grid whose points are apart by less than the lower half of the interval twice has a hit. -/
theorem exists_onGrid_of_lt {k : Int} {half : ℕ} (hhalf : b.low + half = 4 * b.mantissa)
    (hle : half ≤ 2) (h : b.gridUnit k < 2 * (half * b.gridUp k)) :
    ∃ digits, b.onGrid k = some digits := by
  have hlow : b.low * b.gridUp k + half * b.gridUp k = 4 * b.mantissa * b.gridUp k := by
    rw [← Nat.add_mul, hhalf]
  have hhigh : 4 * b.mantissa * b.gridUp k + half * b.gridUp k ≤ b.high * b.gridUp k := by
    rw [← Nat.add_mul]
    exact Nat.mul_le_mul_right _ (Nat.add_le_add_left hle _)
  have hunit : 0 < b.gridUnit k := Nat.mul_pos (Nat.pow_pos (by decide)) (Nat.pow_pos (by decide))
  have hhit := inside_or_inside (b := b) hlow hhigh hunit h
  rw [onGrid_eq]
  dsimp only
  split
  · next hbelow habove => exact absurd hhit (by simp [hbelow, habove])
  · exact ⟨_, rfl⟩
  · exact ⟨_, rfl⟩
  · split_ifs
    · exact ⟨_, rfl⟩
    · exact ⟨_, rfl⟩

/-- **Seventeen digits are enough.**  A grid on which the magnitude is ten to the sixteenth or more
has a hit. -/
theorem exists_onGrid (hb : b.Canonical) (hpos : 0 < b.mantissa) {k : Int}
    (h : b.gridUnit k * 10 ^ 16 ≤ 4 * b.mantissa * b.gridUp k) :
    ∃ digits, b.onGrid k = some digits := by
  have hup : 0 < b.gridUp k := Nat.mul_pos (Nat.pow_pos (by decide)) (Nat.pow_pos (by decide))
  by_cases hedge : b.mantissa = Nat.pow 2 52 ∧ leastExponent < b.exponent
  · have hlow : b.low + 1 = 4 * b.mantissa := by
      rw [low, if_pos hedge]
      omega
    refine exists_onGrid_of_lt hlow (by decide) ?_
    rw [hedge.1, Nat.pow_eq] at h
    omega
  · have hlow : b.low + 2 = 4 * b.mantissa := by
      rw [low, if_neg hedge]
      omega
    refine exists_onGrid_of_lt hlow le_rfl ?_
    have hmul := Nat.mul_lt_mul_of_pos_right hb.below hup
    rw [Nat.mul_assoc] at h
    omega

/-! ## The shortest decimal -/

theorem digitCount_pos (n : ℕ) : 0 < digitCount n := Nat.length_toDigits_pos

theorem lt_pow_digitCount (n : ℕ) : n < 10 ^ digitCount n :=
  (Nat.length_toDigits_le_iff (by decide) (digitCount_pos n)).1 le_rfl

theorem pow_digitCount_le {n : ℕ} (h : 0 < n) : 10 ^ (digitCount n - 1) ≤ n := by
  by_cases hone : digitCount n = 1
  · rw [hone]
    exact h
  · by_contra hlt
    have hcount := digitCount_pos n
    have hle := (Nat.length_toDigits_le_iff (b := 10) (n := n) (k := digitCount n - 1) (by decide)
      (by omega)).2 (by omega)
    have : digitCount n ≤ digitCount n - 1 := hle
    omega

/-- The magnitude as a fraction. -/
theorem value_mul_den (b : Binary) :
    b.value * ((2 ^ (-b.exponent).toNat : ℕ) : ℚ) =
      ((b.mantissa * 2 ^ b.exponent.toNat : ℕ) : ℚ) := by
  have hpow := zpow_mul_pow_toNat (a := 2) (by norm_num) b.exponent
  push_cast
  rw [value, mul_assoc, hpow]

/-- The power of ten of the leading digit is not above the magnitude. -/
theorem pow_leading_le (h : 0 < b.mantissa) : 10 ^ b.leading ≤ b.value := by
  have hfraction := b.value_mul_den
  have hden : 0 < 2 ^ (-b.exponent).toNat := Nat.pow_pos (by decide)
  have hnum : 0 < b.mantissa * 2 ^ b.exponent.toNat := Nat.mul_pos h (Nat.pow_pos (by decide))
  simp only [leading, Nat.pow_eq]
  generalize b.mantissa * 2 ^ b.exponent.toNat = num at *
  generalize 2 ^ (-b.exponent).toNat = den at *
  have hdenominator : (0 : ℚ) < den := by exact_mod_cast hden
  have hsmall (places : ℕ) (hle : den ≤ num * 10 ^ places) :
      (10 : ℚ) ^ (-(places : ℤ)) ≤ b.value := by
    rw [zpow_neg, zpow_natCast, inv_le_iff_one_le_mul₀ (by positivity),
      ← mul_le_mul_iff_of_pos_right hdenominator, one_mul, mul_right_comm, hfraction]
    exact_mod_cast hle
  split
  · next hle =>
    have hquotient := pow_digitCount_le (Nat.div_pos hle hden)
    have hcount := digitCount_pos (num / den)
    have hexponent : ((digitCount (num / den) : ℤ) - 1) =
        ((digitCount (num / den) - 1 : ℕ) : ℤ) := by omega
    rw [hexponent, zpow_natCast, ← mul_le_mul_iff_of_pos_right hdenominator, hfraction]
    exact_mod_cast (Nat.mul_le_mul_right den hquotient).trans (Nat.div_mul_le_self num den)
  · split
    · next hle =>
      have hcount := digitCount_pos (den / num)
      have hexponent : 1 - (digitCount (den / num) : ℤ) =
          -((digitCount (den / num) - 1 : ℕ) : ℤ) := by omega
      rw [hexponent]
      exact hsmall _ hle
    · refine hsmall _ ?_
      have hlt := (Nat.div_lt_iff_lt_mul hnum).1 (lt_pow_digitCount (den / num))
      rw [Nat.mul_comm]
      exact hlt.le

/-- **The shortest decimal rounds to the magnitude.** -/
theorem rounds_shortest (hb : b.Canonical) (h : 0 < b.mantissa) : b.Rounds b.shortest.value := by
  -- The last of the grids has a hit at least.
  have hlast : b.gridUnit (b.leading - (16 : ℕ)) * 10 ^ 16 ≤
      4 * b.mantissa * b.gridUp (b.leading - (16 : ℕ)) := by
    have hpow : (10 : ℚ) ^ (b.leading - (16 : ℕ)) * 10 ^ 16 = 10 ^ b.leading := by
      rw [← zpow_natCast (10 : ℚ) 16, ← zpow_add₀ (by norm_num), Int.sub_add_cancel]
    have hle := mul_le_mul_of_nonneg_right (pow_leading_le h)
      (b.gridFactor_pos (b.leading - (16 : ℕ))).le
    rw [← hpow, mul_right_comm, pow_mul_gridFactor, value_eq, mul_assoc (4 * (b.mantissa : ℚ)),
      quarter_mul_gridFactor] at hle
    exact_mod_cast hle
  obtain ⟨digits, hdigits⟩ := exists_onGrid hb h hlast
  cases hfind : (List.range 17).findSome? fun (i : ℕ) ↦
      (b.onGrid (b.leading - i)).map fun digits ↦ Scaled.mk digits (b.leading - i) with
  | none =>
    have hnone := List.findSome?_eq_none_iff.1 hfind 16 (by decide)
    rw [hdigits] at hnone
    cases hnone
  | some s =>
    obtain ⟨i, _, hi⟩ := List.exists_of_findSome?_eq_some hfind
    obtain ⟨digits, hgrid, rfl⟩ := Option.map_eq_some_iff.1 hi
    rw [shortest]
    simp only [hfind, Option.getD_some]
    exact rounds_of_inside (inside_of_onGrid hgrid)

end Binary

end Reckoner.Decimal
