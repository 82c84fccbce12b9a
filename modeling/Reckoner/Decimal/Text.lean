import Reckoner.Decimal.Shortest

/-!
# The text of a real number

`Layout.text` writes a `Float` with the digits of `Binary.shortest`.  A `Layout` holds the format's
decisions: which decimal exponents are written out in full, and how wide an exponent is at least.
A number that is written out in full keeps a fraction, `.0` if nothing else, so that it never
looks like a whole number.
-/

set_option autoImplicit false

namespace Reckoner.Decimal

/-- The decisions of a number format. -/
structure Layout where
  /-- The least decimal exponent that is written out in full. -/
  fullFrom : Int
  /-- The first decimal exponent above those that are written out in full. -/
  fullBelow : Int
  /-- The least number of digits of an exponent. -/
  exponentWidth : Nat
  deriving DecidableEq, Repr

/-- The sign in front of a number. -/
def signText (negative : Bool) : String := if negative then "-" else ""

/-- The digits of a number without the zeros at its end. -/
def significant (n : Nat) : List Char :=
  ((Nat.toDigits 10 n).reverse.dropWhile (· == '0')).reverse

/-- A row of zeros. -/
def zeros (n : Nat) : List Char := List.replicate n '0'

/-- `0.ds · 10 ^ point`, written out in full. -/
def fullText (ds : List Char) (point : Int) : List Char :=
  if point ≤ 0 then
    '0' :: '.' :: (zeros (-point).toNat ++ ds)
  else if (ds.length : Int) ≤ point then
    ds ++ zeros (point.toNat - ds.length) ++ ['.', '0']
  else
    ds.take point.toNat ++ '.' :: ds.drop point.toNat

/-- A decimal exponent with its sign, at least `width` digits wide. -/
def exponentText (width : Nat) (e : Int) : List Char :=
  let ds := Nat.toDigits 10 e.natAbs
  (if e < 0 then '-' else '+') :: (zeros (width - ds.length) ++ ds)

/-- One digit before the point, the others behind it, then the exponent. -/
def exponentForm (width : Nat) (ds : List Char) (e : Int) : List Char :=
  let fraction := ds.drop 1
  ds.take 1 ++ (if fraction.isEmpty then [] else '.' :: fraction) ++ 'e' :: exponentText width e

/-- The text of a positive decimal. -/
def Layout.scaled (l : Layout) (s : Scaled) : List Char :=
  let point : Int := (digitCount s.digits : Int) + s.exponent
  let ds := significant s.digits
  if l.fullFrom ≤ point - 1 ∧ point - 1 < l.fullBelow then fullText ds point
  else exponentForm l.exponentWidth ds (point - 1)

/-- The text of a number. -/
def Layout.text (l : Layout) (x : Float) : String :=
  match classify x with
  | .nan => "nan"
  | .infinite negative => signText negative ++ "inf"
  | .finite negative b =>
    signText negative ++ if b.mantissa = 0 then "0.0" else String.ofList (l.scaled b.shortest)

end Reckoner.Decimal
