/-!
# Reports

A report is an error as it is shown: what kind of error it is, a message, and where known the place
in the expression, the expression, the circumstances and a suggestion.

* `Report.render` writes a report, one line for each part, with a mark under the place.
* `Report.atPosition` and `Report.inExpression` add a place and an expression later.  The first
  place counts, and the last expression.
-/

set_option autoImplicit false

namespace Reckoner

/-- The kinds of errors. -/
inductive ErrorKind where
  | general
  | malformed
  | compilation
  | evaluation
  | divideByZero
  | numericDomain
  | unknownSlot
  | typeMismatch
  | typeConversion
  | environment
  deriving DecidableEq, Repr, Inhabited

namespace ErrorKind

/-- The next more general kind. -/
def parent? : ErrorKind → Option ErrorKind
  | general => none
  | malformed | compilation | evaluation | environment => some general
  | divideByZero | numericDomain | unknownSlot | typeMismatch | typeConversion => some evaluation

/-- A kind and all more general ones.  Two steps reach the most general kind from anywhere. -/
def lineage (k : ErrorKind) : List ErrorKind :=
  let parents := k.parent?.toList
  k :: (parents ++ parents.flatMap (·.parent?.toList))

end ErrorKind

/-- An error as it is shown. -/
structure Report where
  kind : ErrorKind
  message : String
  position : Option Int := none
  expression : Option String := none
  context : Option String := none
  suggestion : Option String := none
  deriving DecidableEq, Repr, Inhabited

namespace Report

/-- A row of blanks. -/
def blanks (n : Nat) : String := String.ofList (List.replicate n ' ')

/-- The mark under the place in an expression, which stands behind a heading of twelve characters.
A place before the expression is marked at its start. -/
def pointer (position : Int) : String := blanks (12 + position.toNat) ++ "^"

/-- A line for a part that is present and not empty. -/
def optionalLine (heading : String) : Option String → List String
  | some text => if text.isEmpty then [] else [heading ++ text]
  | none => []

/-- The lines about the expression and the place in it. -/
def placeLines (r : Report) : List String :=
  (match r.expression with
    | some e => ("Expression: " ++ e) :: (r.position.map pointer).toList
    | none => []) ++
  (r.position.map fun p => "Position: " ++ toString p).toList

/-- The lines of a report. -/
def lines (r : Report) : List String :=
  ("Error: " ++ r.message) :: (r.placeLines ++
    optionalLine "Context: " r.context ++ optionalLine "Suggestion: " r.suggestion)

/-- The text of a report. -/
def render (r : Report) : String := "\n".intercalate r.lines

/-- Adds a place to a report that has none. -/
def atPosition (r : Report) (position : Int) : Report :=
  { r with position := r.position.or (some position) }

/-- Adds the expression, in place of an earlier one. -/
def inExpression (r : Report) (expression : String) : Report :=
  { r with expression := some expression }

end Report

end Reckoner
