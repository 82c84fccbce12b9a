import Reckoner.Text.Quoted

/-!
# Texts in documents

A text stands between double quotation marks, in ASCII characters only.  A backslash introduces a
character that cannot stand for itself; characters without a short form are written as one or two
16 bit units of four hexadecimal digits.

* `escapedText` writes a text, and `takeText?` reads one off up to its closing mark.
-/

set_option autoImplicit false

namespace Reckoner.Document

/-! ## Writing -/

/-- A 16 bit unit. -/
def escapedUnit (n : Nat) : List Char := '\\' :: 'u' :: Text.hexDigits 4 n

/-- A character between the marks. -/
def escapedChar (c : Char) : List Char :=
  if c = '"' then ['\\', '"']
  else if c = '\\' then ['\\', '\\']
  else if c = '\n' then ['\\', 'n']
  else if c = '\r' then ['\\', 'r']
  else if c = '\t' then ['\\', 't']
  else if c = '\x08' then ['\\', 'b']
  else if c = '\x0c' then ['\\', 'f']
  else if 0x20 ≤ c.toNat ∧ c.toNat < 0x7f then [c]
  else if c.toNat < 0x10000 then escapedUnit c.toNat
  else
    escapedUnit (0xd800 + (c.toNat - 0x10000) / 0x400) ++
      escapedUnit (0xdc00 + (c.toNat - 0x10000) % 0x400)

/-- A text between its marks. -/
def escapedText (s : String) : List Char := '"' :: (s.toList.flatMap escapedChar ++ ['"'])

/-! ## Reading -/

/-- The value of a hexadecimal digit. -/
def hexValue? (c : Char) : Option Nat :=
  if '0' ≤ c ∧ c ≤ '9' then some (c.toNat - '0'.toNat)
  else if 'a' ≤ c ∧ c ≤ 'f' then some (c.toNat - 'a'.toNat + 10)
  else if 'A' ≤ c ∧ c ≤ 'F' then some (c.toNat - 'A'.toNat + 10)
  else none

/-- The value of four hexadecimal digits. -/
def unitValue? (a b c d : Char) : Option Nat := do
  let a ← hexValue? a
  let b ← hexValue? b
  let c ← hexValue? c
  let d ← hexValue? d
  return ((a * 16 + b) * 16 + c) * 16 + d

/-- The character that two units stand for, the first of which opens a pair. -/
def pairValue? (high low : Nat) : Option Char :=
  if 0xd800 ≤ high ∧ high < 0xdc00 ∧ 0xdc00 ≤ low ∧ low < 0xe000 then
    some (Char.ofNat (0x10000 + (high - 0xd800) * 0x400 + (low - 0xdc00)))
  else none

/-- The character that a single unit stands for.  Half of a pair is no character; it is read as the
replacement character. -/
def singleValue (unit : Nat) : Char :=
  if 0xd800 ≤ unit ∧ unit < 0xe000 then '\ufffd' else Char.ofNat unit

/-- The character of a short form. -/
def shortForm? : Char → Option Char
  | '"' => some '"'
  | '\\' => some '\\'
  | '/' => some '/'
  | 'b' => some '\x08'
  | 'f' => some '\x0c'
  | 'n' => some '\n'
  | 'r' => some '\r'
  | 't' => some '\t'
  | _ => none

/-- Adds a character to a text that was read. -/
def consChar (c : Char) (read : List Char × List Char) : List Char × List Char :=
  (c :: read.1, read.2)

/-- Reads a text up to its closing mark, which is taken off too.  Control characters have to be
escaped. -/
def takeText? : List Char → Option (List Char × List Char)
  | '"' :: rest => some ([], rest)
  | '\\' :: 'u' :: a :: b :: c :: d :: '\\' :: 'u' :: e :: f :: g :: h :: rest => do
    let first ← unitValue? a b c d
    let second ← unitValue? e f g h
    match pairValue? first second with
    | some pair => (takeText? rest).map (consChar pair)
    | none =>
      (takeText? ('\\' :: 'u' :: e :: f :: g :: h :: rest)).map (consChar (singleValue first))
  | '\\' :: 'u' :: a :: b :: c :: d :: rest => do
    let unit ← unitValue? a b c d
    (takeText? rest).map (consChar (singleValue unit))
  | '\\' :: c :: rest => do
    let short ← shortForm? c
    (takeText? rest).map (consChar short)
  | c :: rest => if c = '\\' ∨ c.toNat < 0x20 then none else (takeText? rest).map (consChar c)
  | [] => none

/-- What follows a text is shorter than the text with its closing mark. -/
theorem length_takeText?_lt {cs text rest : List Char} (h : takeText? cs = some (text, rest)) :
    rest.length < cs.length := by
  fun_induction takeText? cs generalizing text rest with
  | case1 tail => simp_all
  | case2 a b c d e f g h' tail ih₁ ih₂ =>
    simp only [Option.bind_eq_bind, Option.bind_eq_some_iff] at h
    obtain ⟨first, -, second, -, h⟩ := h
    split at h
    · obtain ⟨⟨t, r⟩, ht, he⟩ := Option.map_eq_some_iff.1 h
      have := ih₁ ht
      simp only [consChar, Prod.mk.injEq] at he
      obtain ⟨-, rfl⟩ := he
      simp only [List.length_cons]
      omega
    · obtain ⟨⟨t, r⟩, ht, he⟩ := Option.map_eq_some_iff.1 h
      have := ih₂ ht
      simp only [consChar, Prod.mk.injEq] at he
      obtain ⟨-, rfl⟩ := he
      simp only [List.length_cons] at this ⊢
      omega
  | case3 a b c d tail _ ih =>
    simp only [Option.bind_eq_bind, Option.bind_eq_some_iff] at h
    obtain ⟨unit, -, h⟩ := h
    obtain ⟨⟨t, r⟩, ht, he⟩ := Option.map_eq_some_iff.1 h
    have := ih ht
    simp only [consChar, Prod.mk.injEq] at he
    obtain ⟨-, rfl⟩ := he
    simp only [List.length_cons]
    omega
  | case4 c tail _ _ ih =>
    simp only [Option.bind_eq_bind, Option.bind_eq_some_iff] at h
    obtain ⟨short, -, h⟩ := h
    obtain ⟨⟨t, r⟩, ht, he⟩ := Option.map_eq_some_iff.1 h
    have := ih ht
    simp only [consChar, Prod.mk.injEq] at he
    obtain ⟨-, rfl⟩ := he
    simp only [List.length_cons]
    omega
  | case5 => simp at h
  | case6 c tail _ _ _ _ _ ih =>
    obtain ⟨⟨t, r⟩, ht, he⟩ := Option.map_eq_some_iff.1 h
    have := ih ht
    simp only [consChar, Prod.mk.injEq] at he
    obtain ⟨-, rfl⟩ := he
    simp only [List.length_cons]
    omega
  | case7 => simp at h

end Reckoner.Document
