import Reckoner.Document.Basic
import Reckoner.Document.Escape

/-!
# Writing documents

`Document.render` writes a document with one item or field in a line, four blanks deeper than the
brackets around it.  Real numbers have a fraction or an exponent, which tells them from whole ones.
-/

set_option autoImplicit false

namespace Reckoner.Document

/-- A real number in a document. -/
def realChars (x : Float) : List Char :=
  if x.isNaN then "NaN".toList
  else if x.isInf then if x < 0.0 then "-Infinity".toList else "Infinity".toList
  else (realText x).toList

/-- The start of a line. -/
def lineStart (indent : Nat) : List Char := '\n' :: List.replicate indent ' '

mutual

/-- A document whose brackets close at the given indentation. -/
def chars (indent : Nat) : Document → List Char
  | null => "null".toList
  | bool b => if b then "true".toList else "false".toList
  | int n => (toString n).toList
  | real x => realChars x
  | text s => escapedText s
  | array [] => ['[', ']']
  | array (d :: ds) =>
    '[' :: (lineStart (indent + 4) ++ d.chars (indent + 4) ++ itemChars (indent + 4) ds ++
      lineStart indent ++ [']'])
  | object [] => ['\x7b', '\x7d']
  | object ((key, d) :: rest) =>
    '\x7b' :: (lineStart (indent + 4) ++ escapedText key ++ [':', ' '] ++ d.chars (indent + 4) ++
      fieldChars (indent + 4) rest ++ lineStart indent ++ ['\x7d'])

/-- The items after the first one. -/
def itemChars (indent : Nat) : List Document → List Char
  | [] => []
  | d :: ds => ',' :: (lineStart indent ++ d.chars indent ++ itemChars indent ds)

/-- The fields after the first one. -/
def fieldChars (indent : Nat) : List (String × Document) → List Char
  | [] => []
  | (key, d) :: rest =>
    ',' :: (lineStart indent ++ escapedText key ++ [':', ' '] ++ d.chars indent ++
      fieldChars indent rest)

end

/-- The text of a document. -/
def render (d : Document) : String := String.ofList (d.chars 0)

end Reckoner.Document
