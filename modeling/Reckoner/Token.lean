import Reckoner.Decimal.Numeral
import Reckoner.Operator

/-!
# Tokens

The tokens of an expression are numbers, names, brackets, commas, equals signs, operators, and stray
characters that mean nothing.  Numbers and names are as long as possible.  Every character belongs
to exactly one token, so a token starts where the one before it ends.

* `Token.next` splits one token off a text, and `Placed.scan` all of them, each with its position.
* `Token.next_append` says that nothing is lost.
-/

set_option autoImplicit false

namespace Reckoner

open Decimal

/-- A token. -/
inductive Token where
  | number (numeral : List Char)
  | name (text : String)
  | opening
  | closing
  | comma
  | equals
  | operator (op : Operator)
  | stray (c : Char)
  deriving DecidableEq, Repr, Inhabited

/-- Whether a name may start with a character. -/
def isNameStart (c : Char) : Bool := c.isAlpha || c == '_'

/-- Whether a name may go on with a character. -/
def isNamePart (c : Char) : Bool := c.isAlphanum || c == '_'

namespace Token

/-- The characters of a token. -/
def chars : Token → List Char
  | number numeral => numeral
  | name text => text.toList
  | opening => ['(']
  | closing => [')']
  | comma => [',']
  | equals => ['=']
  | operator op => [op.symbol]
  | stray c => [c]

/-- The number of characters of a token. -/
def width (t : Token) : Nat := t.chars.length

/-- The first character of a token. -/
def firstChar (t : Token) : Char := t.chars.headD ' '

/-- The token of a character that starts neither a number nor a name. -/
def ofChar (c : Char) : Token :=
  match Operator.ofChar? c with
  | some op => operator op
  | none =>
    if c = '(' then opening
    else if c = ')' then closing
    else if c = ',' then comma
    else if c = '=' then equals
    else stray c

/-- The first token of a text that starts with `c`, and the rest of the text. -/
def next (c : Char) (cs : List Char) : Token × List Char :=
  match takeNumeral? (c :: cs) with
  | some (numeral, rest) => (number numeral, rest)
  | none =>
    if isNameStart c then
      (name (String.ofList (c :: cs.takeWhile isNamePart)), cs.dropWhile isNamePart)
    else (ofChar c, cs)

theorem chars_ofChar (c : Char) : (ofChar c).chars = [c] := by
  unfold ofChar
  split
  · next op h => simp [chars, Operator.symbol_of_ofChar? h]
  · repeat' split
    all_goals simp_all [chars]

/-- Nothing is lost when a token is split off. -/
theorem next_append (c : Char) (cs : List Char) :
    (next c cs).1.chars ++ (next c cs).2 = c :: cs := by
  unfold next
  split
  · next numeral rest h => exact (takeNumeral?_append h).1
  · split
    · simp [chars]
    · simp [chars_ofChar]

/-- A token is not empty. -/
theorem chars_next_ne_nil (c : Char) (cs : List Char) : (next c cs).1.chars ≠ [] := by
  unfold next
  split
  · next numeral rest h => exact (takeNumeral?_append h).2
  · split
    · simp [chars]
    · simp [chars_ofChar]

/-- The rest of a text is shorter than the text. -/
theorem length_next_lt (c : Char) (cs : List Char) :
    (next c cs).2.length < (c :: cs).length := by
  have happend := congrArg List.length (next_append c cs)
  have hne := List.length_pos_iff.2 (chars_next_ne_nil c cs)
  simp only [List.length_append] at happend
  omega

end Token

/-- A token and the position of its first character. -/
structure Placed where
  token : Token
  position : Nat
  deriving DecidableEq, Repr, Inhabited

namespace Placed

/-- The tokens of a text that starts at a position. -/
def scan (position : Nat) : List Char → List Placed
  | [] => []
  | c :: cs =>
    ⟨(Token.next c cs).1, position⟩ ::
      scan (position + (Token.next c cs).1.width) (Token.next c cs).2
termination_by cs => cs.length
decreasing_by exact Token.length_next_lt c cs

/-- The tokens of a text, put together, are the text. -/
theorem flatMap_chars_scan (position : Nat) (cs : List Char) :
    (scan position cs).flatMap (·.token.chars) = cs := by
  fun_induction scan position cs with
  | case1 => rfl
  | case2 position c cs ih => rw [List.flatMap_cons, ih, Token.next_append]

end Placed

end Reckoner
