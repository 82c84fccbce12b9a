import Reckoner.Decimal.Shortest
import Reckoner.Text.Digit

/-!
# Numerals

A numeral is a row of digits with an optional point, then an optional exponent: `12`, `1.`, `.5`,
`2e-3`.  Digits may be of any script.

* `takeNumeral?` splits the longest numeral off a text; an exponent mark without digits is left
  where it is.
* `numeralValue` is the decimal a numeral stands for, and `Scaled.toFloat` the float nearest to a
  decimal.
-/

set_option autoImplicit false

namespace Reckoner.Decimal

open Text

/-! ## Splitting a numeral off -/

/-- Splits an optional sign off. -/
def takeSign : List Char → List Char × List Char
  | '+' :: cs => (['+'], cs)
  | '-' :: cs => (['-'], cs)
  | cs => ([], cs)

/-- Splits an exponent off: a mark, an optional sign and at least one digit.  Without a digit there
is no exponent. -/
def takeExponent : List Char → List Char × List Char
  | [] => ([], [])
  | mark :: cs =>
    if mark = 'e' ∨ mark = 'E' then
      let (sign, rest) := takeSign cs
      if (rest.takeWhile isDigit).isEmpty then ([], mark :: cs)
      else (mark :: (sign ++ rest.takeWhile isDigit), rest.dropWhile isDigit)
    else ([], mark :: cs)

/-- Splits the digits and the point of a numeral off.  There is a digit on at least one side of the
point. -/
def takeMantissa? (cs : List Char) : Option (List Char × List Char) :=
  let whole := cs.takeWhile isDigit
  match cs.dropWhile isDigit with
  | '.' :: rest =>
    let fraction := rest.takeWhile isDigit
    if whole.isEmpty && fraction.isEmpty then none
    else some (whole ++ '.' :: fraction, rest.dropWhile isDigit)
  | rest => if whole.isEmpty then none else some (whole, rest)

/-- Splits the longest numeral off a text that starts with one. -/
def takeNumeral? (cs : List Char) : Option (List Char × List Char) :=
  (takeMantissa? cs).map fun (mantissa, rest) =>
    let (exponent, rest) := takeExponent rest
    (mantissa ++ exponent, rest)

theorem takeSign_append (cs : List Char) : (takeSign cs).1 ++ (takeSign cs).2 = cs := by
  unfold takeSign
  split <;> simp

/-- Nothing is lost when an exponent is split off. -/
theorem takeExponent_append (cs : List Char) :
    (takeExponent cs).1 ++ (takeExponent cs).2 = cs := by
  cases cs with
  | nil => rfl
  | cons mark cs =>
    rw [takeExponent]
    split
    · have h := takeSign_append cs
      dsimp only
      split
      · rfl
      · simp only [List.cons_append, List.append_assoc, List.takeWhile_append_dropWhile, h]
    · rfl

/-- Nothing is lost when a mantissa is split off, and a mantissa is not empty. -/
theorem takeMantissa?_append {cs mantissa rest : List Char}
    (h : takeMantissa? cs = some (mantissa, rest)) : mantissa ++ rest = cs ∧ mantissa ≠ [] := by
  have whole := List.takeWhile_append_dropWhile (p := isDigit) (l := cs)
  unfold takeMantissa? at h
  split at h
  · next tail hd =>
    dsimp only at h
    split at h
    · simp at h
    · simp only [Option.some.injEq, Prod.mk.injEq] at h
      obtain ⟨rfl, rfl⟩ := h
      refine ⟨?_, by simp⟩
      rw [List.append_assoc, List.cons_append, List.takeWhile_append_dropWhile, ← hd, whole]
  · dsimp only at h
    split at h
    · simp at h
    · next hw =>
      simp only [Option.some.injEq, Prod.mk.injEq] at h
      obtain ⟨rfl, rfl⟩ := h
      exact ⟨whole, by simpa using hw⟩

/-- Nothing is lost when a numeral is split off, and a numeral is not empty. -/
theorem takeNumeral?_append {cs numeral rest : List Char}
    (h : takeNumeral? cs = some (numeral, rest)) : numeral ++ rest = cs ∧ numeral ≠ [] := by
  obtain ⟨⟨mantissa, tail⟩, hm, he⟩ := Option.map_eq_some_iff.1 h
  obtain ⟨rfl, hne⟩ := takeMantissa?_append hm
  simp only [Prod.mk.injEq] at he
  obtain ⟨rfl, rfl⟩ := he
  exact ⟨by rw [List.append_assoc, takeExponent_append], by simp [hne]⟩

/-! ## The value of a numeral -/

/-- The number a row of digits stands for. -/
def digitsValue (cs : List Char) : Nat :=
  cs.foldl (fun n c => 10 * n + (digitValue? c).getD 0) 0

/-- The number a row of digits with an optional sign stands for. -/
def signedValue (cs : List Char) : Int :=
  match takeSign cs with
  | (['-'], ds) => -(digitsValue ds : Int)
  | (_, ds) => digitsValue ds

/-- Whether a character separates a mantissa from its exponent. -/
def isExponentMark (c : Char) : Bool := c == 'e' || c == 'E'

/-- The decimal a numeral stands for. -/
def numeralValue (cs : List Char) : Scaled :=
  let mantissa := cs.takeWhile (!isExponentMark ·)
  let exponent := (cs.dropWhile (!isExponentMark ·)).drop 1
  let fraction := (mantissa.dropWhile (· != '.')).drop 1
  ⟨digitsValue (mantissa.takeWhile (· != '.') ++ fraction),
    signedValue exponent - fraction.length⟩

/-- Positive infinity. -/
def infinity : Float := 1.0 / 0.0

/-- The float nearest to a decimal.  Decimals from `10 ^ 400` on are infinite and those below
`10 ^ -400` zero, long before their exponents become unwieldy. -/
def Scaled.toFloat (s : Scaled) : Float :=
  let magnitude : Int := digitCount s.digits + s.exponent
  if s.digits = 0 ∨ magnitude < -400 then 0.0
  else if 400 < magnitude then infinity
  else Float.ofScientific s.digits (decide (s.exponent < 0)) s.exponent.natAbs

/-- The float a numeral stands for. -/
def numeralFloat (cs : List Char) : Float := (numeralValue cs).toFloat

/-- The float nearest to a whole number, or `none` if it is beyond all floats. -/
def floatOfInt? (n : Int) : Option Float :=
  let magnitude := (Scaled.mk n.natAbs 0).toFloat
  if magnitude.isInf then none else some (if n < 0 then -magnitude else magnitude)

end Reckoner.Decimal
