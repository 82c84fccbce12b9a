/-!
# Sets of characters

A set of characters is given by its boundaries: the ascending list of the code points at which
membership changes, starting from "outside".  `CharSet.contains` walks along the list.
-/

set_option autoImplicit false

namespace Reckoner.Text

/-- Whether a code point is a member, when `inside` tells the state before the first boundary. -/
def withinBounds (inside : Bool) : List Nat → Nat → Bool
  | [], _ => inside
  | bound :: bounds, n => if n < bound then inside else withinBounds (!inside) bounds n

/-- A set of characters, as the ascending list of its boundaries. -/
structure CharSet where
  bounds : List Nat
  deriving DecidableEq, Repr

/-- Membership. -/
def CharSet.contains (s : CharSet) (c : Char) : Bool := withinBounds false s.bounds c.toNat

end Reckoner.Text
