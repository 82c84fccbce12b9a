import Reckoner.Proofs.Decimal.Interval
import Reckoner.Proofs.Decimal.Text
import Reckoner.Proofs.Document.Number

/-!
# A float is known by its text

The text of a float is enough to tell which one it is.

* What is written for a decimal stands for it (`value_scaled`), whether it is written out in full
  or with an exponent.  A number is read in its parts (`numeralValue_parts`), and zeros before its
  digits or behind them only move it.
* So the text of a finite float stands for a real that rounds to it (`rounds_unsignedText`), and no
  real rounds to two of them.
* What is not finite is told by the first letter behind the sign (`firstChars`).

Taking a float apart loses nothing (`classify_injective`): of the bits that are not a number, a
float has only those of the format's own.  So floats with one text are one (`realText_injective`).
-/

set_option autoImplicit false

namespace Reckoner.Decimal

open Document.Token

/-! ## Digits -/

theorem digitsValue_append (cs ds : List Char) :
    digitsValue (cs ++ ds) = digitsValue cs * 10 ^ ds.length + digitsValue ds := by
  have hfold (n : ℕ) : ds.foldl (fun n c ↦ 10 * n + (Text.digitValue? c).getD 0) n =
      n * 10 ^ ds.length + digitsValue ds := by
    induction ds using List.reverseRecOn with
    | nil => simp [digitsValue]
    | append_singleton ds d ih =>
      simp only [digitsValue, List.foldl_append, List.foldl_cons, List.foldl_nil, ih,
        List.length_append, List.length_singleton, pow_succ]
      ring
  rw [digitsValue, List.foldl_append, hfold]
  rfl

theorem digitsValue_zeros (n : ℕ) : digitsValue (zeros n) = 0 := by
  induction n with
  | zero => rfl
  | succ n ih =>
    have hzeros : zeros (n + 1) = ['0'] ++ zeros n := rfl
    have hzero : digitsValue ['0'] = 0 := by decide
    rw [hzeros, digitsValue_append, ih, hzero, Nat.zero_mul]

/-- Zeros before digits change nothing. -/
theorem digitsValue_zeros_append (n : ℕ) (ds : List Char) :
    digitsValue (zeros n ++ ds) = digitsValue ds := by
  rw [digitsValue_append, digitsValue_zeros, Nat.zero_mul, Nat.zero_add]

/-- Each zero behind digits multiplies by ten. -/
theorem digitsValue_append_zeros (ds : List Char) (n : ℕ) :
    digitsValue (ds ++ zeros n) = digitsValue ds * 10 ^ n := by
  rw [digitsValue_append, digitsValue_zeros, zeros, List.length_replicate, Nat.add_zero]

/-! ## What numerals stand for -/

section

variable {whole fraction exponent : List Char}

theorem passes_asciiDigits {p : Char → Bool} (hp : ∀ c ∈ asciiDigits, p c = true)
    {ds : List Char} (hds : AsciiDigits ds) (rest : List Char) :
    (ds ++ rest).takeWhile p = ds ++ rest.takeWhile p ∧
      (ds ++ rest).dropWhile p = rest.dropWhile p := by
  have hall : ∀ c ∈ ds, p c = true := fun c hc ↦ hp c (mem_asciiDigits (hds c hc))
  exact ⟨List.takeWhile_append_of_pos hall, List.dropWhile_append_of_pos hall⟩

theorem not_isExponentMark : ∀ c ∈ asciiDigits, (!isExponentMark c) = true := by
  simp [asciiDigits, isExponentMark]

theorem ne_point : ∀ c ∈ asciiDigits, (c != '.') = true := by
  simp [asciiDigits]

/-- A mantissa ends where its exponent starts. -/
theorem spans_mantissa (hwhole : AsciiDigits whole) (hfraction : Fraction fraction)
    (hexponent : Power exponent) :
    (whole ++ fraction ++ exponent).takeWhile (!isExponentMark ·) = whole ++ fraction ∧
      (whole ++ fraction ++ exponent).dropWhile (!isExponentMark ·) = exponent := by
  have hend : exponent.takeWhile (!isExponentMark ·) = [] ∧
      exponent.dropWhile (!isExponentMark ·) = exponent := by
    cases hexponent with
    | none => exact ⟨rfl, rfl⟩
    | some => exact ⟨rfl, rfl⟩
  obtain ⟨htake, hdrop⟩ :=
    passes_asciiDigits not_isExponentMark hwhole (fraction ++ exponent)
  rw [List.append_assoc, htake, hdrop]
  cases hfraction with
  | none =>
    rw [List.nil_append, hend.1, hend.2]
    exact ⟨rfl, rfl⟩
  | @some ds _ hds =>
    obtain ⟨htake, hdrop⟩ := passes_asciiDigits not_isExponentMark hds exponent
    have hpoint : (!isExponentMark '.') = true := rfl
    rw [List.cons_append, List.takeWhile_cons, List.dropWhile_cons, if_pos hpoint, if_pos hpoint,
      htake, hdrop, hend.1, hend.2, List.append_nil]
    exact ⟨rfl, rfl⟩

/-- **What a number stands for**: its digits, moved by the length of its fraction and by its
exponent. -/
theorem numeralValue_parts (hwhole : AsciiDigits whole) (hfraction : Fraction fraction)
    (hexponent : Power exponent) :
    numeralValue (whole ++ fraction ++ exponent) =
      ⟨digitsValue (whole ++ fraction.drop 1),
        signedValue (exponent.drop 1) - (fraction.drop 1).length⟩ := by
  obtain ⟨htake, hdrop⟩ := spans_mantissa hwhole hfraction hexponent
  have hspans : (whole ++ fraction).takeWhile (· != '.') = whole ∧
      (whole ++ fraction).dropWhile (· != '.') = fraction := by
    obtain ⟨htake, hdrop⟩ := passes_asciiDigits ne_point hwhole fraction
    rw [htake, hdrop]
    cases hfraction with
    | none => simp
    | some => simp
  rw [numeralValue, htake, hdrop, hspans.1, hspans.2]

end

/-! ## What written decimals stand for -/

theorem signedValue_exponentText (width : ℕ) (e : ℤ) : signedValue (exponentText width e) = e := by
  have hdigits : digitsValue (zeros (width - (Nat.toDigits 10 e.natAbs).length) ++
      Nat.toDigits 10 e.natAbs) = e.natAbs := by
    rw [digitsValue_zeros_append, digitsValue_toDigits]
  rw [exponentText]
  split
  · show -((digitsValue (zeros _ ++ Nat.toDigits 10 e.natAbs) : ℕ) : ℤ) = e
    rw [hdigits]
    omega
  · show ((digitsValue (zeros _ ++ Nat.toDigits 10 e.natAbs) : ℕ) : ℤ) = e
    rw [hdigits]
    omega

/-- A number without an exponent. -/
theorem value_pointed {whole fraction : List Char} (hwhole : AsciiDigits whole)
    (hne : fraction ≠ []) (hfraction : AsciiDigits fraction) :
    (numeralValue (whole ++ '.' :: fraction)).value =
      digitsValue (whole ++ fraction) * 10 ^ (-(fraction.length : ℤ)) := by
  have hparts := numeralValue_parts hwhole (.some hne hfraction) .none
  rw [List.append_nil] at hparts
  rw [hparts, Scaled.value]
  simp [signedValue, takeSign, digitsValue]

/-- A decimal that is written out in full. -/
theorem value_fullText {ds : List Char} (hds : AsciiDigits ds) (hne : ds ≠ []) (point : ℤ) :
    (numeralValue (fullText ds point)).value = digitsValue ds * 10 ^ (point - ds.length) := by
  have hzero : AsciiDigits ['0'] := AsciiDigits.zeros 1
  rw [fullText]
  split
  · next hsmall =>
    have htext : '0' :: '.' :: (zeros (-point).toNat ++ ds) =
        ['0'] ++ '.' :: (zeros (-point).toNat ++ ds) := rfl
    rw [htext, value_pointed hzero (by simp [hne]) ((AsciiDigits.zeros _).append hds)]
    have hdigits : digitsValue (['0'] ++ (zeros (-point).toNat ++ ds)) = digitsValue ds := by
      rw [← List.append_assoc]
      exact digitsValue_zeros_append ((-point).toNat + 1) ds
    rw [hdigits, List.length_append, zeros, List.length_replicate]
    congr 2
    push_cast
    omega
  · split
    · next hsmall hlarge =>
      obtain ⟨n, hn⟩ : ∃ n : ℕ, point = ds.length + n := ⟨(point - ds.length).toNat, by omega⟩
      have htext : ds ++ zeros (point.toNat - ds.length) ++ ['.', '0'] =
          (ds ++ zeros n) ++ '.' :: ['0'] := by
        rw [hn]
        congr 3
        omega
      rw [htext, value_pointed (hds.append (AsciiDigits.zeros n)) (by simp) hzero]
      have hdigits : digitsValue (ds ++ zeros n ++ ['0']) = digitsValue ds * 10 ^ (n + 1) := by
        rw [← digitsValue_append_zeros, List.append_assoc, zeros, zeros, List.replicate_succ']
      have hscale : (10 : ℚ) ^ (n + 1) * 10 ^ (-1 : ℤ) = 10 ^ n := by
        rw [pow_succ, zpow_neg_one, mul_assoc, mul_inv_cancel₀ (by norm_num), mul_one]
      rw [hdigits, hn, add_sub_cancel_left, zpow_natCast, ← hscale]
      push_cast
      exact mul_assoc _ _ _
    · next hsmall hlarge =>
      obtain ⟨n, rfl⟩ : ∃ n : ℕ, point = n := ⟨point.toNat, by omega⟩
      have hshort : n < ds.length := by omega
      have htaken : AsciiDigits (ds.take n) := fun c hc ↦ hds c (List.mem_of_mem_take hc)
      have hdropped : AsciiDigits (ds.drop n) := fun c hc ↦ hds c (List.mem_of_mem_drop hc)
      rw [Int.toNat_natCast, value_pointed htaken (by simpa using hshort) hdropped,
        List.take_append_drop, List.length_drop]
      congr 2
      omega

/-- A decimal that is written with an exponent. -/
theorem value_exponentForm {c : Char} {cs : List Char} (hds : AsciiDigits (c :: cs)) (width : ℕ)
    (e : ℤ) :
    (numeralValue (exponentForm width (c :: cs) e)).value =
      digitsValue (c :: cs) * 10 ^ (e - cs.length) := by
  obtain ⟨hfirst, hrest⟩ := List.forall_mem_cons.1 hds
  have hwhole : AsciiDigits [c] := by simpa [AsciiDigits] using hfirst
  have hdropped : (if cs.isEmpty then [] else '.' :: cs).drop 1 = cs := by
    split_ifs with hempty
    · simpa using hempty
    · rfl
  have hparts := numeralValue_parts hwhole (.ofDigits hrest) (.exponentText width e)
  rw [hdropped, List.drop_one, List.tail_cons, signedValue_exponentText] at hparts
  exact congrArg Scaled.value hparts

/-- The digits of a number are its significant ones and zeros. -/
theorem toDigits_eq_significant (n : ℕ) :
    ∃ k, Nat.toDigits 10 n = significant n ++ zeros k := by
  have hzeros : (Nat.toDigits 10 n).reverse.takeWhile (· == '0') =
      zeros ((Nat.toDigits 10 n).reverse.takeWhile (· == '0')).length :=
    List.eq_replicate_of_mem fun c hc ↦ by simpa using List.mem_takeWhile_imp hc
  refine ⟨((Nat.toDigits 10 n).reverse.takeWhile (· == '0')).length, ?_⟩
  rw [← List.reverse_inj, List.reverse_append, significant, List.reverse_reverse, zeros,
    List.reverse_replicate, ← zeros, ← hzeros, List.takeWhile_append_dropWhile]

/-- **What a decimal is written as stands for it.** -/
theorem value_scaled (l : Layout) {s : Scaled} (h : 0 < s.digits) :
    (numeralValue (l.scaled s)).value = s.value := by
  obtain ⟨c, cs, hcons, -, hdigits⟩ := significant_eq_cons h
  obtain ⟨k, hk⟩ := toDigits_eq_significant s.digits
  have hvalue : (s.digits : ℚ) = digitsValue (c :: cs) * 10 ^ k := by
    rw [← digitsValue_toDigits s.digits, hk, hcons, digitsValue_append_zeros]
    push_cast
    rfl
  have hcount : digitCount s.digits = cs.length + 1 + k := by
    rw [digitCount, hk, hcons, List.length_append, List.length_cons, zeros, List.length_replicate]
  have hscale : s.value = digitsValue (c :: cs) * 10 ^ (k + s.exponent) := by
    rw [Scaled.value, hvalue, zpow_add₀ (by norm_num), zpow_natCast, mul_assoc]
  rw [hscale, Layout.scaled, hcons]
  split
  · rw [value_fullText hdigits (List.cons_ne_nil c cs), hcount, List.length_cons]
    congr 2
    push_cast
    ring
  · rw [value_exponentForm hdigits, hcount]
    congr 2
    push_cast
    ring

/-! ## Taking a float apart -/

open Float.Model UnpackedFloat in
/-- A float that is not a number has the bits of the one that the format has. -/
theorem bits_of_classify_nan {x : Float} (h : classify x = .nan) :
    x.toBits.toBitVec = packedNaN Format.binary64 := by
  obtain ⟨⟨bits, hvalid⟩⟩ := x
  have hexponent (b : BitVec Format.binary64.numBits) :
      (unpackExponent b).toNat = b.toNat / 2 ^ 52 % 2 ^ 11 := by
    simp [unpackExponent, BitVec.extractLsb, BitVec.extractLsb', Nat.shiftRight_eq_div_pow]
  have hmantissa (b : BitVec Format.binary64.numBits) :
      (unpackMantissa b).toNat = b.toNat % 2 ^ 52 := by
    simp [unpackMantissa, BitVec.extractLsb, BitVec.extractLsb']
  rw [classify] at h
  split at h
  · next hfield =>
    split at h
    · cases h
    · next hfraction =>
      refine hvalid.eq_packedNaN ?_ fun hzero ↦ hfraction ?_
      · rw [← BitVec.toNat_inj, hexponent]
        exact hfield
      · rw [← BitVec.toNat_inj, hmantissa] at hzero
        exact hzero
  · split at h <;> cases h

/-- A magnitude that is taken out of a float is canonical. -/
theorem canonical_of_classify {x : Float} {negative : Bool} {b : Binary}
    (h : classify x = .finite negative b) : b.Canonical := by
  rw [classify] at h
  dsimp only [Nat.pow_eq] at h
  split at h
  · split at h <;> cases h
  · split at h
    · cases h
      exact ⟨le_rfl, by dsimp only; omega, fun hlt ↦ absurd hlt (lt_irrefl _)⟩
    · cases h
      exact ⟨by dsimp only; omega, by dsimp only; omega, fun _ ↦ Nat.le_add_right _ _⟩

/-- What a float stands for tells the three fields of its bits, unless it is not a number. -/
theorem fields_eq_of_classify_eq {x y : Float} (h : classify x = classify y)
    (hnan : classify x ≠ .nan) :
    (2 ^ 63 ≤ x.toBits.toNat ↔ 2 ^ 63 ≤ y.toBits.toNat) ∧
      x.toBits.toNat / 2 ^ 52 % 2 ^ 11 = y.toBits.toNat / 2 ^ 52 % 2 ^ 11 ∧
      x.toBits.toNat % 2 ^ 52 = y.toBits.toNat % 2 ^ 52 := by
  simp only [classify, Nat.pow_eq] at h hnan
  split_ifs at h hnan <;>
    simp only [ne_eq, not_true_eq_false, reduceCtorEq, Class.infinite.injEq, Class.finite.injEq,
      Binary.mk.injEq, decide_eq_decide, and_true] at h hnan <;>
    omega

/-- **A float is known by what it stands for.** -/
theorem classify_injective {x y : Float} (h : classify x = classify y) : x = y := by
  refine float_eq_of_bits_eq (UInt64.toNat_inj.1 ?_)
  by_cases hnan : classify x = .nan
  · rw [← UInt64.toNat_toBitVec, ← UInt64.toNat_toBitVec, bits_of_classify_nan hnan,
      bits_of_classify_nan (h ▸ hnan)]
  · -- The fields take up all 64 bits.
    obtain ⟨hsign, hfield, hfraction⟩ := fields_eq_of_classify_eq h hnan
    have hx := x.toBits.toNat_lt
    have hy := y.toBits.toNat_lt
    omega

/-! ## The texts of floats -/

/-- What may be written first behind the sign. -/
def firstChars : Class → List Char
  | .nan => ['n']
  | .infinite _ => ['i']
  | .finite _ _ => asciiDigits

theorem exists_unsignedText (c : Class) :
    ∃ d ds, unsignedText c = d :: ds ∧ d ∈ firstChars c := by
  cases c with
  | nan => exact ⟨_, _, rfl, List.mem_singleton_self _⟩
  | infinite => exact ⟨_, _, rfl, List.mem_singleton_self _⟩
  | finite negative b =>
    obtain ⟨whole, fraction, exponent, htext, hparts, -⟩ := written_unsignedText negative b
    obtain ⟨d, ds, hcons, hd⟩ := hparts.head []
    exact ⟨d, ds, by rw [htext, ← hcons, List.append_nil], mem_asciiDigits hd⟩

/-- **What is written for a magnitude rounds to it.** -/
theorem rounds_unsignedText {b : Binary} (hb : b.Canonical) (negative : Bool) :
    b.Rounds (numeralValue (unsignedText (.finite negative b))).value := by
  rw [unsignedText]
  split_ifs with hmantissa
  · have hvalue : (numeralValue ['0', '.', '0']).value = 0 := by
      have hdigits : numeralValue ['0', '.', '0'] = ⟨0, -1⟩ := by decide
      rw [hdigits, Scaled.value, Nat.cast_zero, zero_mul]
    have hlow : b.low = 0 := by
      rw [Binary.low, if_neg (by simp [hmantissa]), hmantissa]
    rw [hvalue]
    refine ⟨by simp [hlow], mul_nonneg (Nat.cast_nonneg _) b.quarter_pos.le, ?_⟩
    intro hodd
    rw [hmantissa] at hodd
    cases hodd
  · have hpos := Nat.pos_of_ne_zero hmantissa
    have hrounds := Binary.rounds_shortest hb hpos
    have hdigits : 0 < b.shortest.digits := by
      refine Nat.pos_of_ne_zero fun hzero ↦ (hrounds.pos hpos).ne' ?_
      rw [Scaled.value, hzero, Nat.cast_zero, zero_mul]
    rwa [value_scaled realLayout hdigits]

/-- A sign is told from what is written behind it. -/
theorem sign_text_eq {c c' : Class}
    (h : signChars (isSigned c) ++ unsignedText c = signChars (isSigned c') ++ unsignedText c') :
    isSigned c = isSigned c' ∧ unsignedText c = unsignedText c' := by
  have hminus (c : Class) : ∃ d ds, unsignedText c = d :: ds ∧ d ≠ '-' := by
    obtain ⟨d, ds, hcons, hd⟩ := exists_unsignedText c
    refine ⟨d, ds, hcons, ?_⟩
    rintro rfl
    cases c <;> simp [firstChars, asciiDigits] at hd
  obtain ⟨d, ds, hcons, hd⟩ := hminus c
  obtain ⟨d', ds', hcons', hd'⟩ := hminus c'
  rw [hcons, hcons'] at h ⊢
  cases hsign : isSigned c <;> cases hsign' : isSigned c' <;> rw [hsign, hsign'] at h
  · exact ⟨rfl, h⟩
  · exact absurd (List.cons.inj h).1 hd
  · exact absurd (List.cons.inj h).1.symm hd'
  · exact ⟨rfl, (List.cons.inj h).2⟩

/-- What is written behind a sign tells magnitudes, infinities and what is not a number apart. -/
theorem class_eq_of_text_eq {c c' : Class} (hc : ∀ negative b, c = .finite negative b → b.Canonical)
    (hc' : ∀ negative b, c' = .finite negative b → b.Canonical) (hsign : isSigned c = isSigned c')
    (htext : unsignedText c = unsignedText c') : c = c' := by
  obtain ⟨d, ds, hcons, hd⟩ := exists_unsignedText c
  obtain ⟨d', ds', hcons', hd'⟩ := exists_unsignedText c'
  obtain ⟨rfl, -⟩ : d = d' ∧ ds = ds' := List.cons.inj (by rw [← hcons, htext, hcons'])
  cases c with
  | nan =>
    obtain rfl : d = 'n' := List.mem_singleton.1 hd
    cases c' with
    | nan => rfl
    | infinite => simp [firstChars] at hd'
    | finite => simp [firstChars, asciiDigits] at hd'
  | infinite negative =>
    obtain rfl : d = 'i' := List.mem_singleton.1 hd
    cases c' with
    | nan => simp [firstChars] at hd'
    | infinite => exact congrArg Class.infinite hsign
    | finite => simp [firstChars, asciiDigits] at hd'
  | finite negative b =>
    cases c' with
    | nan =>
      obtain rfl : d = 'n' := List.mem_singleton.1 hd'
      simp [firstChars, asciiDigits] at hd
    | infinite =>
      obtain rfl : d = 'i' := List.mem_singleton.1 hd'
      simp [firstChars, asciiDigits] at hd
    | finite negative' b' =>
      have hb := hc negative b rfl
      have hb' := hc' negative' b' rfl
      have hrounds' := rounds_unsignedText hb' negative'
      rw [← htext] at hrounds'
      have hmagnitude := (rounds_unsignedText hb negative).unique hb hb' hrounds'
      exact congrArg₂ Class.finite hsign hmagnitude

/-- **A float is known by its text.** -/
theorem realText_injective {x y : Float} (h : realText x = realText y) : x = y := by
  have hchars := congrArg String.toList h
  rw [toList_realText, toList_realText] at hchars
  obtain ⟨hsign, htext⟩ := sign_text_eq hchars
  exact classify_injective <|
    class_eq_of_text_eq (fun _ _ ↦ canonical_of_classify) (fun _ _ ↦ canonical_of_classify)
      hsign htext

/-- The characters of the texts of floats. -/
theorem realText_subset (x : Float) :
    (realText x).toList ⊆ numberChars ++ ['n', 'a', 'i', 'f'] := by
  rw [toList_realText]
  refine List.append_subset.2 ⟨?_, ?_⟩
  · cases isSigned (classify x) <;> decide
  · cases classify x with
    | nan => decide
    | infinite =>
      have hletters : ['i', 'n', 'f'] ⊆ numberChars ++ ['n', 'a', 'i', 'f'] := by decide
      exact hletters
    | finite negative b =>
      obtain ⟨whole, fraction, exponent, htext, hparts, -⟩ := written_unsignedText negative b
      rw [htext]
      exact List.subset_append_of_subset_left _ hparts.subset

end Reckoner.Decimal
