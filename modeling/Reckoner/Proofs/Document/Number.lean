import Reckoner.Document.Printer
import Reckoner.Document.Token
import Reckoner.Proofs.Decimal.Text

/-!
# Numbers in documents are read back

A document is read from left to right, and a number in it is taken off as far as it goes.  So what
was written for a number is taken off if nothing follows with which a number might go on
(`Token.Ends`).

* `Token.takeUnsigned?_parts` takes off the three parts of a number.
* `Token.takeAtom?_toString` reads a whole number, and `Token.takeAtom?_realChars` a float.  The
  float is the one that its text is read as elsewhere, so that nothing has to be known here of how
  the nearest float is found.
-/

set_option autoImplicit false

namespace Reckoner.Document.Token

open Decimal

/-! ## The parts of a number -/

/-- No number goes on with what follows. -/
def Ends (rest : List Char) : Prop :=
  ∀ c ∈ rest.head?, c.isDigit = false ∧ c ≠ '.' ∧ c ≠ 'e' ∧ c ≠ 'E'

variable {whole fraction exponent rest : List Char}

theorem isAsciiDigit_eq : isAsciiDigit = Char.isDigit := rfl

/-- Digits are taken up to the first character that is none. -/
theorem spans_of_asciiDigits {ds : List Char} (h : AsciiDigits ds)
    (hrest : ∀ c ∈ rest.head?, c.isDigit = false) :
    (ds ++ rest).takeWhile isAsciiDigit = ds ∧ (ds ++ rest).dropWhile isAsciiDigit = rest := by
  rw [isAsciiDigit_eq, List.takeWhile_append_of_pos h, List.dropWhile_append_of_pos h]
  cases rest with
  | nil => simp
  | cons c rest => simp [hrest c rfl]

theorem takeWhole?_whole (h : Whole whole) (hrest : ∀ c ∈ rest.head?, c.isDigit = false) :
    takeWhole? (whole ++ rest) = some (whole, rest) := by
  cases h with
  | zero => rfl
  | @digits c cs hfirst hdigits =>
    obtain ⟨hdigit, hdigits⟩ := List.forall_mem_cons.1 hdigits
    have hspans := spans_of_asciiDigits hdigits hrest
    rw [List.cons_append, takeWhole?.eq_2 _ _ hfirst, hspans.1, hspans.2]
    exact if_pos hdigit

theorem takeFraction_fraction (h : Fraction fraction)
    (hrest : ∀ c ∈ rest.head?, c.isDigit = false ∧ c ≠ '.') :
    takeFraction (fraction ++ rest) = (fraction, rest) := by
  cases h with
  | none =>
    rw [List.nil_append, takeFraction.eq_2]
    rintro tail rfl
    exact (hrest '.' rfl).2 rfl
  | some hne hdigits =>
    have hspans := spans_of_asciiDigits hdigits fun c hc ↦ (hrest c hc).1
    rw [List.cons_append, takeFraction, hspans.1, hspans.2, if_neg (by simpa using hne)]

theorem takeExponent_power (h : Power exponent)
    (hrest : ∀ c ∈ rest.head?, c.isDigit = false ∧ c ≠ 'e' ∧ c ≠ 'E') :
    takeExponent (exponent ++ rest) = (exponent, rest) := by
  cases h with
  | none =>
    cases rest with
    | nil => rfl
    | cons c rest =>
      obtain ⟨_, he, hE⟩ := hrest c rfl
      rw [List.nil_append, takeExponent, if_neg (by simp [he, hE])]
  | @some sign ds hsign hne hdigits =>
    have hspans := spans_of_asciiDigits hdigits fun c hc ↦ (hrest c hc).1
    have htake : takeSign (sign :: (ds ++ rest)) = ([sign], ds ++ rest) := by
      rcases hsign with rfl | rfl <;> rfl
    rw [List.cons_append, List.cons_append, takeExponent, if_pos (.inl rfl)]
    simp only [htake, hspans.1, hspans.2]
    rw [if_neg (by simpa using hne)]
    rfl

/-- **The parts of a number are taken off** one after the other. -/
theorem takeUnsigned?_parts (h : Parts whole fraction exponent) (negative : Bool)
    (hrest : Ends rest) :
    takeUnsigned? negative (whole ++ fraction ++ exponent ++ rest) =
      some (numberOf negative whole fraction exponent, rest) := by
  have hafter : ∀ c ∈ (exponent ++ rest).head?, c.isDigit = false ∧ c ≠ '.' := by
    cases h.exponent with
    | none => exact fun c hc ↦ ⟨(hrest c hc).1, (hrest c hc).2.1⟩
    | some =>
      rintro c ⟨⟩
      decide
  have hbefore : ∀ c ∈ (fraction ++ (exponent ++ rest)).head?, c.isDigit = false := by
    cases h.fraction with
    | none => exact fun c hc ↦ (hafter c hc).1
    | some =>
      rintro c ⟨⟩
      decide
  rw [takeUnsigned?, List.append_assoc, List.append_assoc, takeWhole?_whole h.whole hbefore]
  simp only [Option.bind_eq_bind, Option.bind_some, takeFraction_fraction h.fraction hafter,
    takeExponent_power h.exponent fun c hc ↦ ⟨(hrest c hc).1, (hrest c hc).2.2⟩]
  rfl

/-- A number is what stands behind its sign. -/
theorem takeNumber?_signed (negative : Bool) {cs : List Char}
    (h : ∃ c tail, cs = c :: tail ∧ c.isDigit = true) :
    takeNumber? (signChars negative ++ cs) = takeUnsigned? negative cs := by
  obtain ⟨c, tail, rfl, hc⟩ := h
  cases negative with
  | true => rfl
  | false =>
    refine takeNumber?.eq_2 _ ?_
    rintro tail heq
    cases heq
    exact absurd hc (by decide)

/-- No word starts with a digit. -/
theorem takeWord?_signed (negative : Bool) {cs : List Char}
    (h : ∃ c tail, cs = c :: tail ∧ c.isDigit = true) :
    takeWord? (signChars negative ++ cs) = none := by
  obtain ⟨c, tail, rfl, hc⟩ := h
  have hmem := mem_asciiDigits hc
  simp only [asciiDigits, List.mem_cons, List.not_mem_nil, or_false] at hmem
  cases negative <;> rcases hmem with rfl | rfl | rfl | rfl | rfl | rfl | rfl | rfl | rfl | rfl <;>
    rfl

theorem takeAtom?_parts (h : Parts whole fraction exponent) (negative : Bool) (hrest : Ends rest) :
    takeAtom? (signChars negative ++ (whole ++ fraction ++ exponent) ++ rest) =
      some (numberOf negative whole fraction exponent, rest) := by
  have hhead := h.head rest
  rw [takeAtom?, List.append_assoc, takeWord?_signed negative hhead, Option.none_or,
    takeNumber?_signed negative hhead, takeUnsigned?_parts h negative hrest]

/-! ## Atoms -/

theorem digitsValue_toDigits (n : Nat) : digitsValue (Nat.toDigits 10 n) = n := by
  have hall : asciiDigits.all fun c ↦ (Text.digitValue? c).getD 0 = c.toNat - '0'.toNat := by decide
  calc digitsValue (Nat.toDigits 10 n)
      = Nat.ofDigitChars 10 (Nat.toDigits 10 n) 0 := by
        refine List.foldl_ext _ _ _ fun m c hc ↦ ?_
        have hc := List.all_eq_true.1 hall c (mem_asciiDigits (AsciiDigits.toDigits n c hc))
        rw [of_decide_eq_true hc]
    _ = n := Nat.ofDigitChars_ten_toDigits

theorem toList_toString (n : Int) :
    (toString n).toList = signChars (decide (n < 0)) ++ Nat.toDigits 10 n.natAbs := by
  cases n with
  | ofNat n =>
    have hneg : ¬ (n : Int) < 0 := by omega
    simp [signChars, hneg, Int.toString_eq_repr, Int.repr]
  | negSucc n =>
    have hneg : Int.negSucc n < 0 := Int.negSucc_lt_zero n
    simp [signChars, hneg, Int.toString_eq_repr, Int.repr]

/-- **A whole number is read as it was written.** -/
theorem takeAtom?_toString (n : Int) (hrest : Ends rest) :
    takeAtom? ((toString n).toList ++ rest) = some (.int n, rest) := by
  have htaken := takeAtom?_parts ⟨Whole.toDigits n.natAbs, .none, .none⟩ (decide (n < 0)) hrest
  have hvalue : (if n < 0 then -(n.natAbs : Int) else n.natAbs) = n := by split <;> omega
  rw [List.append_nil, List.append_nil, ← toList_toString] at htaken
  rw [htaken]
  simp only [numberOf, List.isEmpty_nil, Bool.and_self, if_true, digitsValue_toDigits,
    decide_eq_true_eq, hvalue]

/-- **A float is read as it was written.**  Those that are not finite are written as words. -/
theorem takeAtom?_realChars {x : Float} (h : ReadsBack x) (hrest : Ends rest) :
    takeAtom? (realChars x ++ rest) = some (.real x, rest) := by
  rw [realChars]
  split_ifs with hnan hinf hneg
  · rw [eq_nan hnan]
    rfl
  · rw [eq_infinity hinf, if_pos hneg]
    rfl
  · rw [eq_infinity hinf, if_neg hneg]
    rfl
  · rw [Bool.not_eq_true] at hnan hinf
    obtain ⟨negative, n, ⟨whole, fraction, exponent, rfl, hparts, hreal⟩, htext⟩ :=
      h.exists_written hnan hinf
    -- Inside and outside of documents, one and the same numeral is read.
    have hread := hparts.readFloat? negative
    rw [← htext, String.ofList_toList, h hnan hinf] at hread
    rw [htext, takeAtom?_parts hparts negative hrest, numberOf, if_neg hreal]
    exact congrArg (fun y ↦ some (Document.real y, rest)) (Option.some.inj hread).symm

end Reckoner.Document.Token
