import Reckoner.Decimal.Shortest

/-!
# Whole parts of real numbers

`truncate?`, `floor?` and `ceil?` are the whole numbers next to a finite real number: toward zero,
down and up.  They are computed exactly, from the binary form of the number, and do not exist for
infinities and for what is not a number.
-/

set_option autoImplicit false

namespace Reckoner.Whole

open Decimal

/-- The whole part of a magnitude. -/
def wholePart (b : Binary) : Nat :=
  b.mantissa * Nat.pow 2 b.exponent.toNat / Nat.pow 2 (-b.exponent).toNat

/-- Whether a magnitude has a fraction. -/
def hasFraction (b : Binary) : Bool :=
  decide (b.mantissa * Nat.pow 2 b.exponent.toNat % Nat.pow 2 (-b.exponent).toNat ≠ 0)

/-- A magnitude with a sign. -/
def signed (negative : Bool) (n : Nat) : Int := if negative then -(n : Int) else n

/-- The whole number next to a finite number toward zero. -/
def truncate? (x : Float) : Option Int :=
  match classify x with
  | .finite negative b => some (signed negative (wholePart b))
  | _ => none

/-- The greatest whole number that is not above a finite number. -/
def floor? (x : Float) : Option Int :=
  match classify x with
  | .finite negative b =>
    let n := signed negative (wholePart b)
    some (if negative && hasFraction b then n - 1 else n)
  | _ => none

/-- The least whole number that is not below a finite number. -/
def ceil? (x : Float) : Option Int :=
  match classify x with
  | .finite negative b =>
    let n := signed negative (wholePart b)
    some (if !negative && hasFraction b then n + 1 else n)
  | _ => none

/-- Whether a number is finite and has no fraction. -/
def isWhole (x : Float) : Bool :=
  match classify x with
  | .finite _ b => !hasFraction b
  | _ => false

end Reckoner.Whole
