import Reckoner.Decimal.Numeral
import Reckoner.Text.Blank

/-!
# Reading a real number from text

`readFloat?` reads a whole text as a real number: a numeral with an optional sign, or one of the
words `inf`, `infinity` and `nan` in any case.  Blanks around it are ignored, and single underscores
may stand between digits.
-/

set_option autoImplicit false

namespace Reckoner.Decimal

open Text

/-- Blanks that may surround a number: all of them but the four information separators. -/
def isPadding (c : Char) : Bool := isBlank c && !(0x1c ≤ c.toNat && c.toNat ≤ 0x1f)

/-- A text without the padding at both ends. -/
def trimPadding (cs : List Char) : List Char :=
  ((cs.dropWhile isPadding).reverse.dropWhile isPadding).reverse

/-- Removes single underscores between digits; `none` if an underscore stands elsewhere.  The first
argument tells whether the character before was a digit. -/
def joinDigits? : Bool → List Char → Option (List Char)
  | _, [] => some []
  | afterDigit, c :: cs =>
    if c = '_' then
      if afterDigit && cs.head?.any isDigit then joinDigits? false cs else none
    else (joinDigits? (isDigit c) cs).map (c :: ·)

/-- A number without a sign. -/
def readUnsigned? (cs : List Char) : Option Float :=
  let word := String.ofList (cs.map Char.toLower)
  if word = "inf" ∨ word = "infinity" then some infinity
  else if word = "nan" then some (0.0 / 0.0)
  else
    match takeNumeral? cs with
    | some (numeral, []) => some (numeralFloat numeral)
    | _ => none

/-- The real number a text stands for. -/
def readFloat? (s : String) : Option Float := do
  let cs ← joinDigits? false (trimPadding s.toList)
  match takeSign cs with
  | (['-'], rest) => (readUnsigned? rest).map (-·)
  | (_, rest) => readUnsigned? rest

end Reckoner.Decimal
