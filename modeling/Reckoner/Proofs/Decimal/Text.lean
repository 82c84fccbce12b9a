import Reckoner.Decimal.Reading
import Reckoner.Proofs.Decimal.Interval
import Reckoner.Proofs.Grammar.Lexeme
import Reckoner.Value.Basic
import Mathlib

/-!
# The texts of floats

A finite float is written as a number with a fraction or an exponent.  `Written` says what that is
without saying how it is written: digits that start with a zero only where there is no other, then a
point with digits, then an exponent with its sign, of which the last two may be missing
(`Parts`).

* `Parts.readFloat?` says what such a text is read as.
* `exists_written` says that the text of a finite float is one.  Its digits come from a search, of
  which only one thing matters here: a magnitude that is not zero is not written as zero
  (`onGrid_pos`).
* `ReadsBack` says of a float that its text gives it back if it is finite.  Of the others there are
  three, which are told from each other without their texts (`eq_nan`, `eq_infinity`).
-/

set_option autoImplicit false

namespace Reckoner.Decimal

/-! ## The parts of a number -/

/-- Digits are ASCII digits. -/
def AsciiDigits (cs : List Char) : Prop := ∀ c ∈ cs, c.isDigit = true

/-- The digits of a whole number: a single zero, or digits that do not start with one. -/
inductive Whole : List Char → Prop
  | zero : Whole ['0']
  | digits {c : Char} {cs : List Char} (first : c ≠ '0') (digits : AsciiDigits (c :: cs)) :
    Whole (c :: cs)

/-- Nothing, or a point with digits. -/
inductive Fraction : List Char → Prop
  | none : Fraction []
  | some {ds : List Char} (nonempty : ds ≠ []) (digits : AsciiDigits ds) : Fraction ('.' :: ds)

/-- Nothing, or an exponent with a sign. -/
inductive Power : List Char → Prop
  | none : Power []
  | some {sign : Char} {ds : List Char} (signs : sign = '+' ∨ sign = '-') (nonempty : ds ≠ [])
    (digits : AsciiDigits ds) : Power ('e' :: sign :: ds)

/-- The three parts of a number. -/
structure Parts (whole fraction exponent : List Char) : Prop where
  whole : Whole whole
  fraction : Fraction fraction
  exponent : Power exponent

/-- A number that is told from a whole one. -/
def Written (n : List Char) : Prop :=
  ∃ whole fraction exponent, n = whole ++ fraction ++ exponent ∧ Parts whole fraction exponent ∧
    ¬ (fraction.isEmpty && exponent.isEmpty) = true

variable {whole fraction exponent : List Char}

theorem AsciiDigits.append {cs ds : List Char} (hcs : AsciiDigits cs) (hds : AsciiDigits ds) :
    AsciiDigits (cs ++ ds) :=
  fun c hc ↦ (List.mem_append.1 hc).elim (hcs c) (hds c)

theorem AsciiDigits.zeros (n : Nat) : AsciiDigits (zeros n) := by
  intro c hc
  rw [List.eq_of_mem_replicate hc]
  rfl

theorem AsciiDigits.toDigits (n : Nat) : AsciiDigits (Nat.toDigits 10 n) :=
  fun _ hc ↦ Nat.isDigit_of_mem_toDigits (by decide) (by decide) hc

theorem Whole.asciiDigits (h : Whole whole) : AsciiDigits whole ∧ whole ≠ [] := by
  cases h with
  | zero => exact ⟨AsciiDigits.zeros 1, by simp⟩
  | digits hfirst hdigits => exact ⟨hdigits, by simp⟩

theorem Whole.head (h : Whole whole) (cs : List Char) :
    ∃ c tail, whole ++ cs = c :: tail ∧ c.isDigit = true := by
  cases h with
  | zero => exact ⟨'0', cs, rfl, rfl⟩
  | @digits c tail hfirst hdigits => exact ⟨c, tail ++ cs, rfl, hdigits c List.mem_cons_self⟩

/-- A number starts with a digit. -/
theorem Parts.head (h : Parts whole fraction exponent) (cs : List Char) :
    ∃ c tail, whole ++ fraction ++ exponent ++ cs = c :: tail ∧ c.isDigit = true := by
  rw [List.append_assoc, List.append_assoc]
  exact h.whole.head _

/-! ## What a number is read as -/

/-- The ASCII digits. -/
def asciiDigits : List Char := ['0', '1', '2', '3', '4', '5', '6', '7', '8', '9']

theorem mem_asciiDigits {c : Char} (h : c.isDigit = true) : c ∈ asciiDigits := by
  rw [Char.isDigit, Bool.and_eq_true, decide_eq_true_eq, decide_eq_true_eq] at h
  have hlow : 48 ≤ c.toNat := h.1
  have hhigh : c.toNat ≤ 57 := h.2
  rw [← Char.ofNat_toNat c]
  generalize c.toNat = n at hlow hhigh
  interval_cases n <;> decide

theorem AsciiDigits.digits {ds : List Char} (h : AsciiDigits ds) (hne : ds ≠ []) : Digits ds :=
  ⟨hne, fun c hc ↦ isDigit_of_ascii (h c hc)⟩

theorem Parts.numeral (h : Parts whole fraction exponent) :
    Numeral (whole ++ fraction ++ exponent) := by
  obtain ⟨hwhole, hfraction, hexponent⟩ := h
  have hdigits := hwhole.asciiDigits.1.digits hwhole.asciiDigits.2
  refine .intro ?_ ?_
  · cases hfraction with
    | none => simpa using Mantissa.whole hdigits
    | some hne hds => exact .point hdigits (hds.digits hne).2
  · cases hexponent with
    | none => exact .none
    | @some sign ds hsign hne hds =>
      exact @Exponent.some 'e' [sign] ds (.inl rfl) (by simpa using hsign) (hds.digits hne)

theorem takeNumeral?_eq_self {n : List Char} (h : Numeral n) : takeNumeral? n = some (n, []) := by
  obtain ⟨numeral, rest, htaken, hle⟩ := h.taken []
  rw [List.append_nil] at htaken
  have happend := (takeNumeral?_append htaken).1
  have hlength := congrArg List.length happend
  rw [List.length_append] at hlength
  obtain rfl : rest = [] := List.eq_nil_of_length_eq_zero (by omega)
  rw [List.append_nil] at happend
  rw [htaken, happend]

/-- The characters of numbers. -/
def numberChars : List Char := asciiDigits ++ ['.', 'e', '+', '-']

theorem AsciiDigits.subset {ds : List Char} (h : AsciiDigits ds) : ds ⊆ numberChars :=
  fun _ hc ↦ List.mem_append_left _ (mem_asciiDigits (h _ hc))

theorem Parts.subset (h : Parts whole fraction exponent) :
    whole ++ fraction ++ exponent ⊆ numberChars := by
  obtain ⟨hwhole, hfraction, hexponent⟩ := h
  refine List.append_subset.2 ⟨List.append_subset.2 ⟨hwhole.asciiDigits.1.subset, ?_⟩, ?_⟩
  · cases hfraction with
    | none => simp
    | some _ hds => exact List.cons_subset.2 ⟨by decide, hds.subset⟩
  · cases hexponent with
    | none => simp
    | some hsign _ hds =>
      refine List.cons_subset.2 ⟨by decide, List.cons_subset.2 ⟨?_, hds.subset⟩⟩
      rcases hsign with rfl | rfl <;> decide

theorem trimPadding_eq_self {cs : List Char} (h : cs ⊆ numberChars) : trimPadding cs = cs := by
  have hnone : numberChars.all (!isPadding ·) = true := by decide
  have hdrop : ∀ ds ⊆ numberChars, ds.dropWhile isPadding = ds := by
    intro ds hds
    refine List.dropWhile_eq_self_iff.2 fun hpos ↦ ?_
    simpa using List.all_eq_true.1 hnone _ (hds (List.getElem_mem hpos))
  rw [trimPadding, hdrop cs h, hdrop _ (List.reverse_subset.2 h), List.reverse_reverse]

theorem joinDigits?_eq_self {cs : List Char} (h : cs ⊆ numberChars) (afterDigit : Bool) :
    joinDigits? afterDigit cs = some cs := by
  induction cs generalizing afterDigit with
  | nil => rfl
  | cons c cs ih =>
    obtain ⟨hc, hcs⟩ := List.cons_subset.1 h
    have hscore : c ≠ '_' := by
      rintro rfl
      exact absurd hc (by decide)
    rw [joinDigits?, if_neg hscore, ih hcs, Option.map_some]

/-- A text that starts with a digit is no word. -/
theorem readUnsigned?_numeral {n : List Char} (h : Numeral n)
    (hhead : ∃ c tail, n = c :: tail ∧ c.isDigit = true) :
    readUnsigned? n = some (numeralFloat n) := by
  obtain ⟨c, tail, rfl, hc⟩ := hhead
  have hletters : ∀ d ∈ asciiDigits, d.toLower ≠ 'i' ∧ d.toLower ≠ 'n' := by simp [asciiDigits]
  obtain ⟨hi, hn⟩ := hletters c (mem_asciiDigits hc)
  have hword : ∀ word : String, word.toList.head? ≠ some c.toLower →
      ¬ String.ofList ((c :: tail).map Char.toLower) = word := by
    rintro word hword rfl
    exact hword (by simp)
  rw [readUnsigned?, if_neg, if_neg (hword "nan" (by simpa using hn.symm)),
    takeNumeral?_eq_self h]
  rintro (hinf | hinf)
  · exact hword "inf" (by simpa using hi.symm) hinf
  · exact hword "infinity" (by simpa using hi.symm) hinf

/-- The sign of a number. -/
def signChars (negative : Bool) : List Char := if negative then ['-'] else []

/-- The float of a number with its sign. -/
def signed (negative : Bool) (x : Float) : Float := if negative then -x else x

theorem takeSign_signChars (negative : Bool) {c : Char} (h : c.isDigit = true) (cs : List Char) :
    takeSign (signChars negative ++ c :: cs) = (signChars negative, c :: cs) := by
  have hsigns : ∀ d ∈ asciiDigits, d ≠ '+' ∧ d ≠ '-' := by simp [asciiDigits]
  obtain ⟨hplus, hminus⟩ := hsigns c (mem_asciiDigits h)
  cases negative with
  | true => rfl
  | false =>
    exact takeSign.eq_3 _ (fun _ heq ↦ hplus (List.cons.inj heq).1)
      (fun _ heq ↦ hminus (List.cons.inj heq).1)

/-- **What a number with a sign is read as.** -/
theorem Parts.readFloat? (h : Parts whole fraction exponent) (negative : Bool) :
    readFloat? (String.ofList (signChars negative ++ (whole ++ fraction ++ exponent))) =
      some (signed negative (numeralFloat (whole ++ fraction ++ exponent))) := by
  have hall : signChars negative ++ (whole ++ fraction ++ exponent) ⊆ numberChars := by
    refine List.append_subset.2 ⟨?_, h.subset⟩
    cases negative <;> decide
  obtain ⟨c, tail, hcons, hc⟩ := h.head []
  rw [List.append_nil] at hcons
  have hunsigned := readUnsigned?_numeral h.numeral ⟨c, tail, hcons, hc⟩
  rw [Decimal.readFloat?, String.toList_ofList, trimPadding_eq_self hall, joinDigits?_eq_self hall]
  rw [hcons] at hunsigned ⊢
  simp only [Option.bind_eq_bind, Option.bind_some, takeSign_signChars negative hc]
  cases negative <;> simp [signChars, hunsigned, signed]

/-! ## How floats are written -/

/-- A positive number does not start with a zero. -/
theorem toDigits_eq_cons {n : Nat} (h : 0 < n) :
    ∃ c cs, Nat.toDigits 10 n = c :: cs ∧ c ≠ '0' := by
  induction n using Nat.strong_induction_on with
  | _ n ih =>
    rw [Nat.toDigits_eq_if (by decide)]
    split
    · refine ⟨_, _, rfl, ?_⟩
      interval_cases n <;> decide
    · obtain ⟨c, cs, hcons, hc⟩ := ih (n / 10) (by omega) (by omega)
      exact ⟨c, cs ++ [Nat.digitChar (n % 10)], by rw [hcons]; rfl, hc⟩

theorem Whole.toDigits (n : Nat) : Whole (Nat.toDigits 10 n) := by
  rcases Nat.eq_zero_or_pos n with rfl | hpos
  · exact .zero
  · have hdigits := AsciiDigits.toDigits n
    obtain ⟨c, cs, hcons, hc⟩ := toDigits_eq_cons hpos
    rw [hcons] at hdigits ⊢
    exact .digits hc hdigits

/-- Zeros at the end of a positive number are dropped, and no more. -/
theorem significant_eq_cons {n : Nat} (h : 0 < n) :
    ∃ c cs, significant n = c :: cs ∧ c ≠ '0' ∧ AsciiDigits (c :: cs) := by
  obtain ⟨c, cs, hcons, hc⟩ := toDigits_eq_cons h
  have hdigits := AsciiDigits.toDigits n
  obtain ⟨zeros, hprefix⟩ : significant n <+: Nat.toDigits 10 n :=
    List.rdropWhile_prefix (· == '0') _
  have hne : significant n ≠ [] := fun hnil ↦ hc <| by
    simpa using List.rdropWhile_eq_nil_iff.1 hnil c (by rw [hcons]; exact List.mem_cons_self)
  obtain ⟨d, ds, hds⟩ := List.exists_cons_of_ne_nil hne
  rw [← hprefix, hds] at hcons
  rw [← hprefix, hds] at hdigits
  obtain ⟨rfl, -⟩ := List.cons.inj hcons
  exact ⟨d, ds, hds, hc, fun x hx ↦ hdigits x (List.mem_append_left _ hx)⟩

theorem written_fullText {c : Char} {cs : List Char} (hfirst : c ≠ '0')
    (hdigits : AsciiDigits (c :: cs)) (point : Int) : Written (fullText (c :: cs) point) := by
  rw [fullText]
  split_ifs with hsmall hlarge
  · exact ⟨['0'], '.' :: (zeros (-point).toNat ++ c :: cs), [], by simp,
      ⟨.zero, .some (by simp) ((AsciiDigits.zeros _).append hdigits), .none⟩, by simp⟩
  · exact ⟨c :: cs ++ zeros (point.toNat - (c :: cs).length), ['.', '0'], [], by simp,
      ⟨.digits hfirst (hdigits.append (AsciiDigits.zeros _)),
        .some (by simp) (AsciiDigits.zeros 1), .none⟩, by simp⟩
  · obtain ⟨k, hk⟩ : ∃ k : Nat, point = k + 1 := ⟨(point - 1).toNat, by omega⟩
    have hlength : k < cs.length := by simpa [hk] using hlarge
    have hwhole : AsciiDigits (c :: cs.take k) := fun d hd ↦
      hdigits d (List.mem_of_mem_take (i := k + 1) hd)
    have hfraction : AsciiDigits (cs.drop k) := fun d hd ↦
      hdigits d (List.mem_cons_of_mem _ (List.mem_of_mem_drop hd))
    exact ⟨c :: cs.take k, '.' :: cs.drop k, [], by simp [hk],
      ⟨.digits hfirst hwhole, .some (by simpa using hlength) hfraction, .none⟩, by simp⟩

theorem Fraction.ofDigits {ds : List Char} (h : AsciiDigits ds) :
    Fraction (if ds.isEmpty then [] else '.' :: ds) := by
  split_ifs with hempty
  · exact .none
  · exact .some (by simpa using hempty) h

theorem Power.exponentText (width : Nat) (e : Int) : Power ('e' :: exponentText width e) :=
  .some (by split <;> simp) (by simp) ((AsciiDigits.zeros _).append (AsciiDigits.toDigits _))

theorem written_exponentForm {c : Char} {cs : List Char} (hfirst : c ≠ '0')
    (hdigits : AsciiDigits (c :: cs)) (width : Nat) (e : Int) :
    Written (exponentForm width (c :: cs) e) := by
  obtain ⟨hdigit, hrest⟩ := List.forall_mem_cons.1 hdigits
  have hwhole : Whole [c] := .digits hfirst (by simpa [AsciiDigits] using hdigit)
  exact ⟨_, _, _, rfl, ⟨hwhole, .ofDigits hrest, .exponentText width e⟩, by simp⟩

theorem written_scaled {s : Scaled} (h : 0 < s.digits) : Written (realLayout.scaled s) := by
  obtain ⟨c, cs, hcons, hfirst, hdigits⟩ := significant_eq_cons h
  simp only [Layout.scaled, hcons]
  split
  · exact written_fullText hfirst hdigits _
  · exact written_exponentForm hfirst hdigits _ _

/-- Zero is not among the multiples that round to a positive magnitude. -/
theorem onGrid_pos {b : Binary} (h : 0 < b.mantissa) {k : Int} {digits : Nat}
    (hgrid : b.onGrid k = some digits) : 0 < digits := by
  have hvalue := (Binary.rounds_of_inside (Binary.inside_of_onGrid hgrid)).pos h
  refine Nat.pos_of_ne_zero ?_
  rintro rfl
  rw [Nat.cast_zero, zero_mul] at hvalue
  exact lt_irrefl _ hvalue

theorem shortest_digits {b : Binary} (h : 0 < b.mantissa) :
    b.shortest = ⟨0, 0⟩ ∨ 0 < b.shortest.digits := by
  unfold Binary.shortest
  cases hfind : (List.range 17).findSome? fun (i : Nat) ↦
      (b.onGrid (b.leading - i)).map fun digits ↦ Scaled.mk digits (b.leading - i) with
  | none => exact .inl (by simp [hfind])
  | some s =>
    obtain ⟨i, _, hi⟩ := List.exists_of_findSome?_eq_some hfind
    obtain ⟨digits, hgrid, rfl⟩ := Option.map_eq_some_iff.1 hi
    exact .inr (by simpa [hfind] using onGrid_pos h hgrid)

theorem written_zero : Written ['0', '.', '0'] :=
  ⟨['0'], ['.', '0'], [], rfl, ⟨.zero, .some (by simp) (AsciiDigits.zeros 1), .none⟩, by simp⟩

theorem written_shortest {b : Binary} (h : 0 < b.mantissa) :
    Written (realLayout.scaled b.shortest) := by
  rcases shortest_digits h with hzero | hpos
  · rw [hzero]
    exact written_zero
  · exact written_scaled hpos

/-- What is written behind the sign. -/
def unsignedText : Class → List Char
  | .nan => ['n', 'a', 'n']
  | .infinite _ => ['i', 'n', 'f']
  | .finite _ b => if b.mantissa = 0 then ['0', '.', '0'] else realLayout.scaled b.shortest

/-- Whether a sign is written. -/
def isSigned : Class → Bool
  | .nan => false
  | .infinite negative => negative
  | .finite negative _ => negative

theorem toList_realText (x : Float) :
    (realText x).toList = signChars (isSigned (classify x)) ++ unsignedText (classify x) := by
  have hsign (negative : Bool) : (signText negative).toList = signChars negative := by
    cases negative <;> rfl
  rw [realText, Layout.text]
  cases classify x with
  | nan => rfl
  | infinite negative => simp [isSigned, unsignedText, hsign]
  | finite negative b =>
    simp only [isSigned, unsignedText, String.toList_append, hsign]
    split_ifs
    · rfl
    · rw [String.toList_ofList]

theorem written_unsignedText (negative : Bool) (b : Binary) :
    Written (unsignedText (.finite negative b)) := by
  rw [unsignedText]
  split_ifs with hmantissa
  · exact written_zero
  · exact written_shortest (Nat.pos_of_ne_zero hmantissa)

/-- **A finite float is written as a number**, with its sign. -/
theorem exists_written {x : Float} {negative : Bool} {b : Binary}
    (h : classify x = .finite negative b) :
    ∃ n, Written n ∧ (realText x).toList = signChars negative ++ n :=
  ⟨_, written_unsignedText negative b, by rw [toList_realText, h]; rfl⟩

/-! ## Floats that are not finite -/

/-- A float is known by its bits. -/
theorem float_eq_of_bits_eq {x y : Float} (h : x.toBits = y.toBits) : x = y := by
  obtain ⟨⟨bits, _⟩⟩ := x
  obtain ⟨⟨bits', _⟩⟩ := y
  obtain rfl : bits = bits' := h
  rfl

open Float.Model in
theorem float_eq_of_unpack_eq {x y : Float} (h : x.toModel.unpack = y.toModel.unpack) : x = y := by
  have hpacked (x : Float) : UnpackedFloat.pack .binary64 x.toModel.unpack = x.toBits.toBitVec :=
    UnpackedFloat.pack_unpack_of_valid x.toModel.valid
  refine float_eq_of_bits_eq (UInt64.toBitVec_inj.1 ?_)
  rw [← hpacked, ← hpacked, h]

open Float.Model in
/-- There is one float that is not a number. -/
theorem eq_nan {x : Float} (h : x.isNaN = true) : x = 0.0 / 0.0 := by
  have hunpack : ∀ y : Float, y.isNaN = true → y.toModel.unpack = .notANumber := by
    intro y hy
    have hmodel : y.toModel.unpack.isNaN = true := hy
    revert hmodel
    cases y.toModel.unpack <;> simp [UnpackedFloat.isNaN]
  refine float_eq_of_unpack_eq ?_
  rw [hunpack x h, hunpack (0.0 / 0.0) (by decide +kernel)]

open Float.Model in
/-- There are two infinite floats. -/
theorem eq_infinity {x : Float} (h : x.isInf = true) :
    x = if x < 0.0 then -infinity else infinity := by
  obtain ⟨sign, hsign⟩ : ∃ sign, x.toModel.unpack = .infinity sign := by
    have hmodel : x.toModel.unpack.isInf = true := h
    revert hmodel
    cases x.toModel.unpack <;> simp [UnpackedFloat.isInf]
  have hzero : (0.0 : Float).toModel.unpack = .zero .positive := rfl
  have hmodel : x < 0.0 ↔ x.toModel.unpack.lt (0.0 : Float).toModel.unpack = true :=
    decide_eq_true_iff
  have hneg : x < 0.0 ↔ sign = .negative := by
    rw [hmodel, hsign, hzero]
    cases sign <;> simp [UnpackedFloat.lt, UnpackedFloat.compare]
  refine float_eq_of_unpack_eq ?_
  rw [hsign]
  cases sign with
  | negative =>
    rw [if_pos (hneg.2 rfl)]
    rfl
  | positive =>
    rw [if_neg (by simp [hneg])]
    rfl

/-! ## Floats that are read back -/

/-- The text of a float is read as the float, if it is finite. -/
def ReadsBack (x : Float) : Prop :=
  x.isNaN = false → x.isInf = false → readFloat? (realText x) = some x

/-- A finite float that is read back is written as a number. -/
theorem ReadsBack.exists_written {x : Float} (h : ReadsBack x) (hnan : x.isNaN = false)
    (hinf : x.isInf = false) :
    ∃ negative n, Written n ∧ (realText x).toList = signChars negative ++ n := by
  have hread := h hnan hinf
  cases hclass : classify x with
  | nan =>
    have htext : realText x = "nan" := by rw [realText, Layout.text, hclass]
    have hvalue : readFloat? "nan" = some (0.0 / 0.0) := by decide +kernel
    rw [htext, hvalue] at hread
    cases hread
    exact absurd hnan (by decide +kernel)
  | infinite negative =>
    have htext : realText x = signText negative ++ "inf" := by rw [realText, Layout.text, hclass]
    have hvalue : readFloat? (signText negative ++ "inf") = some (signed negative infinity) := by
      cases negative <;> decide +kernel
    rw [htext, hvalue] at hread
    cases hread
    refine absurd hinf ?_
    cases negative <;> decide +kernel
  | finite negative b => exact ⟨negative, Decimal.exists_written hclass⟩

end Reckoner.Decimal
