/-!
# Similar names

Two texts are compared by their matching blocks: the longest block they share, then the longest
blocks to its left and to its right, and so on.  Their similarity is twice the number of matched
characters over the number of all characters.

* `longestBlock` finds the first longest common block of two texts.
* `matched` counts the characters in all matching blocks.
* `closeMatches` are the three candidates most similar to a word, if they are similar enough.

In a long word, characters that occur very often are not used to find blocks, only to widen them.
-/

set_option autoImplicit false

namespace Reckoner.Text

/-! ## Common blocks -/

/-- A common block of two texts: where it starts in each, and its length. -/
structure Block where
  left : Nat
  right : Nat
  size : Nat
  deriving DecidableEq, Repr

/-- The lengths of the common blocks that end in a given character `c` of the left text and in each
character of the right text.  `diagonal` is the length at the position before, for the character of
the left text before `c`; `above` holds the lengths at the positions that follow. -/
def blockRow (frequent : List Char) (c : Char) : Nat → List Nat → List Char → List Nat
  | diagonal, above, d :: ds =>
    (if c = d ∧ ¬ frequent.contains d then diagonal + 1 else 0) ::
      blockRow frequent c (above.headD 0) above.tail ds
  | _, _, [] => []

/-- The better of a block and those of a row that ends before position `i` of the left text and
starts to count at position `j` of the right text.  Only a longer block is better. -/
def bestOfRow (i : Nat) : Nat → List Nat → Block → Block
  | _, [], best => best
  | j, size :: row, best =>
    bestOfRow i (j + 1) row
      (if best.size < size then ⟨i - size, j + 1 - size, size⟩ else best)

/-- The first longest block, row by row. -/
def bestOfRows (frequent b : List Char) : Nat → List Nat → List Char → Block → Block
  | _, _, [], best => best
  | i, above, c :: cs, best =>
    let row := blockRow frequent c 0 above b
    bestOfRows frequent b (i + 1) row cs (bestOfRow (i + 1) 0 row best)

/-- How many leading characters two texts share. -/
def sharedLength : List Char → List Char → Nat
  | c :: cs, d :: ds => if c = d then sharedLength cs ds + 1 else 0
  | _, _ => 0

/-- The first longest common block, widened on both sides as far as the texts agree. -/
def longestBlock (frequent a b : List Char) : Block :=
  let best := bestOfRows frequent b 0 [] a ⟨0, 0, 0⟩
  let before := sharedLength (a.take best.left).reverse (b.take best.right).reverse
  let after := sharedLength (a.drop (best.left + best.size)) (b.drop (best.right + best.size))
  ⟨best.left - before, best.right - before, before + best.size + after⟩

/-- The number of characters in matching blocks.  The blocks to the left and to the right of the
longest one are shorter texts, so `fuel` at least the length of the left text is enough. -/
def matchedWithin (frequent : List Char) : Nat → List Char → List Char → Nat
  | 0, _, _ => 0
  | fuel + 1, a, b =>
    let block := longestBlock frequent a b
    if block.size = 0 then 0
    else
      matchedWithin frequent fuel (a.take block.left) (b.take block.right) + block.size +
        matchedWithin frequent fuel (a.drop (block.left + block.size))
          (b.drop (block.right + block.size))

/-- The characters of a word of at least two hundred characters that make up more than one in a
hundred of it, rounded up. -/
def frequentChars (word : List Char) : List Char :=
  if word.length < 200 then []
  else word.eraseDups.filter fun c => word.length / 100 + 1 < word.count c

/-- The number of characters in matching blocks of a candidate and a word. -/
def matched (candidate word : List Char) : Nat :=
  matchedWithin (frequentChars word) (candidate.length + 1) candidate word

/-! ## Close matches -/

/-- A candidate with its similarity to a word, `2 * matched / total`. -/
structure Match where
  name : String
  matched : Nat
  total : Nat
  deriving DecidableEq, Repr

/-- The match of a candidate.  Two empty texts are alike. -/
def Match.of (word candidate : String) : Match :=
  let total := candidate.length + word.length
  if total = 0 then ⟨candidate, 1, 2⟩
  else ⟨candidate, Text.matched candidate.toList word.toList, total⟩

/-- Similarity of at least three fifths. -/
def Match.isClose (m : Match) : Bool := decide (3 * m.total ≤ 10 * m.matched)

/-- Whether the first match goes in front: the more similar one, then the later name. -/
def Match.precedes (m n : Match) : Bool :=
  decide (n.matched * m.total < m.matched * n.total) ||
    (decide (m.matched * n.total = n.matched * m.total) && decide (n.name ≤ m.name))

/-- The candidates closest to a word, at most three of them, the closest one first. -/
def closeMatches (word : String) (candidates : List String) : List String :=
  let close := (candidates.map (Match.of word)).filter (·.isClose)
  ((close.mergeSort Match.precedes).take 3).map (·.name)

end Reckoner.Text
