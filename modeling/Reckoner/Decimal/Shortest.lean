/-!
# Shortest decimals

Many decimals read back as the same binary floating point number.  This file finds the shortest
of them:

* `classify` takes a `Float` apart: not a number, an infinity, or a sign with a magnitude
  `mantissa · 2 ^ exponent`.
* `Binary.onGrid` looks at the two neighbours of a magnitude on the grid of multiples of `10 ^ k`
  and picks the one that reads back, the nearer of two, and of two equally near the even one.
* `Binary.shortest` takes the coarsest grid with a hit, hence the fewest digits.

All arithmetic is exact, on natural numbers.
-/

set_option autoImplicit false

namespace Reckoner.Decimal

/-- The magnitude `mantissa · 2 ^ exponent`. -/
structure Binary where
  mantissa : Nat
  exponent : Int
  deriving DecidableEq, Repr

/-- The magnitude `digits · 10 ^ exponent`. -/
structure Scaled where
  digits : Nat
  exponent : Int
  deriving DecidableEq, Repr

/-- What a `Float` stands for. -/
inductive Class where
  | nan
  | infinite (negative : Bool)
  | finite (negative : Bool) (magnitude : Binary)
  deriving DecidableEq, Repr

/-! ## Taking a float apart -/

/-- The exponent of the smallest positive float. -/
def leastExponent : Int := -1074

/-- The three fields of the 64 bit format are a sign bit, eleven bits of exponent and 52 bits of
fraction; the exponent fields 0 and 2047 are special. -/
def classify (x : Float) : Class :=
  let bits : Nat := x.toBits.toNat
  let negative := decide (Nat.pow 2 63 ≤ bits)
  let field : Nat := bits / Nat.pow 2 52 % Nat.pow 2 11
  let fraction : Nat := bits % Nat.pow 2 52
  if field = 2047 then
    if fraction = 0 then .infinite negative else .nan
  else if field = 0 then
    .finite negative ⟨fraction, leastExponent⟩
  else
    .finite negative ⟨Nat.pow 2 52 + fraction, leastExponent - 1 + field⟩

/-! ## The interval of reals that round to a magnitude

The bounds are counted in quarters of the last place, because the gap below a power of two is half
as wide as the gap above it. -/

/-- The lower end of the interval, in units of `2 ^ (exponent - 2)`. -/
def Binary.low (b : Binary) : Nat :=
  if b.mantissa = Nat.pow 2 52 ∧ leastExponent < b.exponent then 4 * b.mantissa - 1
  else 4 * b.mantissa - 2

/-- The upper end of the interval, in units of `2 ^ (exponent - 2)`. -/
def Binary.high (b : Binary) : Nat := 4 * b.mantissa + 2

/-- The ends belong to the interval exactly if the mantissa is even, because a real half way
between two floats is rounded to the even one.  All three numbers are brought to one scale by the
caller. -/
def Binary.inside (b : Binary) (low point high : Nat) : Bool :=
  if b.mantissa % 2 = 0 then decide (low ≤ point ∧ point ≤ high)
  else decide (low < point ∧ point < high)

/-! ## The search over decimal grids -/

/-- The best multiple of `10 ^ k` that rounds to the magnitude, if there is one. -/
def Binary.onGrid (b : Binary) (k : Int) : Option Nat :=
  let up := Nat.pow 2 (b.exponent - 2).toNat * Nat.pow 10 (-k).toNat
  let unit := Nat.pow 2 (2 - b.exponent).toNat * Nat.pow 10 k.toNat
  let value := 4 * b.mantissa * up
  let below := value / unit
  let hits := fun point => b.inside (b.low * up) (point * unit) (b.high * up)
  match hits below, hits (below + 1) with
  | false, false => none
  | true, false => some below
  | false, true => some (below + 1)
  | true, true =>
    let down := value - below * unit
    let above := (below + 1) * unit - value
    if down < above ∨ (down = above ∧ below % 2 = 0) then some below else some (below + 1)

/-- The number of decimal digits of a natural number; zero has one. -/
def digitCount (n : Nat) : Nat := (Nat.toDigits 10 n).length

/-- The decimal exponent of the leading digit of a positive magnitude. -/
def Binary.leading (b : Binary) : Int :=
  let num := b.mantissa * Nat.pow 2 b.exponent.toNat
  let den := Nat.pow 2 (-b.exponent).toNat
  if den ≤ num then
    (digitCount (num / den) : Int) - 1
  else
    let places := digitCount (den / num)
    if den ≤ num * Nat.pow 10 (places - 1) then 1 - (places : Int) else -(places : Int)

/-- The decimal of a positive magnitude with the fewest digits.  Seventeen digits tell any two
floats apart, so one of the grids has a hit. -/
def Binary.shortest (b : Binary) : Scaled :=
  let top := b.leading
  ((List.range 17).findSome? fun (i : Nat) =>
    (b.onGrid (top - i)).map fun digits => Scaled.mk digits (top - i)).getD ⟨0, 0⟩

end Reckoner.Decimal
