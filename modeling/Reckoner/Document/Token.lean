import Reckoner.Decimal.Numeral
import Reckoner.Document.Basic
import Reckoner.Document.Escape

/-!
# The tokens of documents

`Token.scan?` splits a text into brackets, commas, colons, texts, and the atoms: numbers and the
words for the other values.  Blanks between tokens are skipped.  A number is whole if it has neither
a fraction nor an exponent.
-/

set_option autoImplicit false

namespace Reckoner.Document

/-- A token of a document. -/
inductive Token where
  | openObject
  | closeObject
  | openArray
  | closeArray
  | comma
  | colon
  | text (s : String)
  | atom (d : Document)
  deriving Inhabited

namespace Token

/-- Whether a character is an ASCII digit. -/
def isAsciiDigit (c : Char) : Bool := '0' ≤ c && c ≤ '9'

/-- Splits the digits of a whole number off: a single zero, or a row that does not start with
zero. -/
def takeWhole? : List Char → Option (List Char × List Char)
  | '0' :: rest => some (['0'], rest)
  | c :: rest =>
    if isAsciiDigit c then some (c :: rest.takeWhile isAsciiDigit, rest.dropWhile isAsciiDigit)
    else none
  | [] => none

/-- Splits a point with at least one digit off. -/
def takeFraction : List Char → List Char × List Char
  | '.' :: rest =>
    if (rest.takeWhile isAsciiDigit).isEmpty then ([], '.' :: rest)
    else ('.' :: rest.takeWhile isAsciiDigit, rest.dropWhile isAsciiDigit)
  | cs => ([], cs)

/-- Splits a mark, an optional sign and at least one digit off. -/
def takeExponent : List Char → List Char × List Char
  | [] => ([], [])
  | mark :: cs =>
    if mark = 'e' ∨ mark = 'E' then
      let (sign, rest) := Decimal.takeSign cs
      if (rest.takeWhile isAsciiDigit).isEmpty then ([], mark :: cs)
      else (mark :: (sign ++ rest.takeWhile isAsciiDigit), rest.dropWhile isAsciiDigit)
    else ([], mark :: cs)

/-- The number of a numeral in three parts. -/
def numberOf (negative : Bool) (whole fraction exponent : List Char) : Document :=
  if fraction.isEmpty && exponent.isEmpty then
    let n : Int := Decimal.digitsValue whole
    .int (if negative then -n else n)
  else
    let x := Decimal.numeralFloat (whole ++ fraction ++ exponent)
    .real (if negative then -x else x)

/-- Splits an unsigned number off. -/
def takeUnsigned? (negative : Bool) (cs : List Char) : Option (Document × List Char) := do
  let (whole, rest) ← takeWhole? cs
  let (fraction, rest) := takeFraction rest
  let (exponent, rest) := takeExponent rest
  return (numberOf negative whole fraction exponent, rest)

/-- Splits a number off. -/
def takeNumber? : List Char → Option (Document × List Char)
  | '-' :: cs => takeUnsigned? true cs
  | cs => takeUnsigned? false cs

/-- The words and what they stand for. -/
def words : List (List Char × Document) :=
  [("null".toList, .null), ("true".toList, .bool true), ("false".toList, .bool false),
   ("NaN".toList, .real (0.0 / 0.0)), ("Infinity".toList, .real Decimal.infinity),
   ("-Infinity".toList, .real (-Decimal.infinity))]

/-- Splits a word off. -/
def takeWord? (cs : List Char) : Option (Document × List Char) :=
  (words.find? fun entry => entry.1.isPrefixOf cs).map fun entry =>
    (entry.2, cs.drop entry.1.length)

/-- Splits an atom off. -/
def takeAtom? (cs : List Char) : Option (Document × List Char) := (takeWord? cs).or (takeNumber? cs)

/-- Whether a character may stand between tokens. -/
def isBlank (c : Char) : Bool := c == ' ' || c == '\t' || c == '\n' || c == '\r'

/-- The token of a character that is one by itself. -/
def ofChar? : Char → Option Token
  | '\x7b' => some openObject
  | '\x7d' => some closeObject
  | '[' => some openArray
  | ']' => some closeArray
  | ',' => some comma
  | ':' => some colon
  | _ => none

/-- Splits one token off a text that starts with `c`. -/
def next? (c : Char) (cs : List Char) : Option (Token × List Char) :=
  match ofChar? c with
  | some token => some (token, cs)
  | none =>
    if c = '"' then (takeText? cs).map fun read => (.text (String.ofList read.1), read.2)
    else (takeAtom? (c :: cs)).map fun read => (.atom read.1, read.2)

theorem length_takeWhole?_lt {cs whole rest : List Char} (h : takeWhole? cs = some (whole, rest)) :
    rest.length < cs.length := by
  unfold takeWhole? at h
  split at h
  · simp_all
  · split at h
    · simp only [Option.some.injEq, Prod.mk.injEq] at h
      obtain ⟨-, rfl⟩ := h
      exact Nat.lt_succ_of_le (List.dropWhile_sublist _).length_le
    · simp at h
  · simp at h

theorem length_takeFraction_le (cs : List Char) : (takeFraction cs).2.length ≤ cs.length := by
  unfold takeFraction
  split
  · split
    · exact Nat.le_refl _
    · exact Nat.le_succ_of_le (List.dropWhile_sublist _).length_le
  · exact Nat.le_refl _

theorem length_takeSign_le (cs : List Char) : (Decimal.takeSign cs).2.length ≤ cs.length := by
  have := congrArg List.length (Decimal.takeSign_append cs)
  simp only [List.length_append] at this
  omega

theorem length_takeExponent_le (cs : List Char) : (takeExponent cs).2.length ≤ cs.length := by
  cases cs with
  | nil => exact Nat.le_refl _
  | cons mark cs =>
    rw [takeExponent]
    split
    · dsimp only
      split
      · exact Nat.le_refl _
      · exact Nat.le_succ_of_le
          (Nat.le_trans (List.dropWhile_sublist _).length_le (length_takeSign_le cs))
    · exact Nat.le_refl _

theorem length_takeUnsigned?_lt {negative : Bool} {cs rest : List Char} {d : Document}
    (h : takeUnsigned? negative cs = some (d, rest)) : rest.length < cs.length := by
  simp only [takeUnsigned?, Option.bind_eq_bind, Option.bind_eq_some_iff] at h
  obtain ⟨⟨whole, tail⟩, hw, he⟩ := h
  have h₁ := length_takeWhole?_lt hw
  have h₂ := length_takeFraction_le tail
  have h₃ := length_takeExponent_le (takeFraction tail).2
  simp only [Option.pure_def, Option.some.injEq, Prod.mk.injEq] at he
  obtain ⟨-, rfl⟩ := he
  omega

theorem length_takeNumber?_lt {cs rest : List Char} {d : Document}
    (h : takeNumber? cs = some (d, rest)) : rest.length < cs.length := by
  unfold takeNumber? at h
  split at h
  · exact Nat.lt_succ_of_lt (length_takeUnsigned?_lt h)
  · exact length_takeUnsigned?_lt h

theorem length_takeWord?_lt {cs rest : List Char} {d : Document}
    (h : takeWord? cs = some (d, rest)) : rest.length < cs.length := by
  obtain ⟨entry, he, hd⟩ := Option.map_eq_some_iff.1 h
  have hpos : 0 < entry.1.length := by
    have := List.mem_of_find?_eq_some he
    simp only [words, List.mem_cons, List.not_mem_nil, or_false] at this
    rcases this with rfl | rfl | rfl | rfl | rfl | rfl <;> decide
  have hp := List.find?_some he
  have hle := (List.isPrefixOf_iff_prefix.1 hp).length_le
  simp only [Prod.mk.injEq] at hd
  obtain ⟨-, rfl⟩ := hd
  rw [List.length_drop]
  omega

theorem length_next?_lt {c : Char} {cs rest : List Char} {t : Token}
    (h : next? c cs = some (t, rest)) : rest.length < (c :: cs).length := by
  unfold next? at h
  split at h
  · simp only [Option.some.injEq, Prod.mk.injEq] at h
    obtain ⟨-, rfl⟩ := h
    exact Nat.lt_succ_self _
  · split at h
    · obtain ⟨⟨text, tail⟩, ht, he⟩ := Option.map_eq_some_iff.1 h
      simp only [Prod.mk.injEq] at he
      obtain ⟨-, rfl⟩ := he
      exact Nat.lt_succ_of_lt (length_takeText?_lt ht)
    · obtain ⟨⟨d, tail⟩, ht, he⟩ := Option.map_eq_some_iff.1 h
      simp only [Prod.mk.injEq] at he
      obtain ⟨-, rfl⟩ := he
      unfold takeAtom? at ht
      rcases Option.or_eq_some_iff.1 ht with hw | ⟨-, hn⟩
      · exact length_takeWord?_lt hw
      · exact length_takeNumber?_lt hn

/-- The tokens of a text. -/
def scan? : List Char → Option (List Token)
  | [] => some []
  | c :: cs =>
    if isBlank c then scan? cs
    else
      match _h : next? c cs with
      | some (token, rest) => (scan? rest).map (token :: ·)
      | none => none
termination_by cs => cs.length
decreasing_by
  · exact Nat.lt_succ_self _
  · exact length_next?_lt _h

end Token

end Reckoner.Document
