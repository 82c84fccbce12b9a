import Reckoner.Token

/-!
# The grammar of expressions

An expression is a list of statements with commas between them.  `Parses` gives each statement its
parse tree, a `Term`, one level of precedence after the other:

* a *statement* is a sum, or an assignment of a statement to a name;
* a *sum* adds and subtracts products, from the left;
* a *product* multiplies, divides and takes remainders of signed powers, from the left;
* a *signed* power has at most one minus sign before it;
* a *power* is an element, or an element to the power of a signed power, hence from the right;
* an *element* is a number, a name, a call, or a statement in brackets.

Nothing is looked up here: a term has the names of its variables and functions as they stand in the
text, and a call has as many arguments as were written.  `Script` is the tree of a whole text.
-/

set_option autoImplicit false

namespace Reckoner

/-! ## Trees -/

/-- The parse tree of a statement or of a part of one. -/
inductive Term where
  | number (numeral : List Char) (position : Nat)
  | name (text : String) (position : Nat)
  | call (text : String) (position : Nat) (arguments : List Term)
  | group (position : Nat) (inner : Term)
  | negate (position : Nat) (operand : Term)
  | binary (op : Operator) (position : Nat) (left right : Term)
  | assign (target : String) (position : Nat) (value : Term)
  deriving Inhabited

/-- The parse tree of a text: the statements with their commas, and the last statement. -/
structure Script where
  /-- The statements that are not the last one, and the positions of the commas behind them. -/
  finished : List (Term × Nat)
  /-- The last statement. -/
  last : Term
  deriving Inhabited

namespace Term

/-- Induction over terms, with the hypothesis for every argument of a call. -/
@[induction_eliminator]
theorem induction {motive : Term → Prop}
    (number : ∀ numeral position, motive (.number numeral position))
    (name : ∀ text position, motive (.name text position))
    (call : ∀ text position arguments, (∀ t ∈ arguments, motive t) →
      motive (.call text position arguments))
    (group : ∀ position inner, motive inner → motive (.group position inner))
    (negate : ∀ position operand, motive operand → motive (.negate position operand))
    (binary : ∀ op position left right, motive left → motive right →
      motive (.binary op position left right))
    (assign : ∀ target position value, motive value → motive (.assign target position value)) :
    ∀ t, motive t
  | .number numeral position => number numeral position
  | .name text position => name text position
  | .call text position arguments => call text position arguments fun t _ ↦
      induction number name call group negate binary assign t
  | .group position inner => group position inner
      (induction number name call group negate binary assign inner)
  | .negate position operand => negate position operand
      (induction number name call group negate binary assign operand)
  | .binary op position left right => binary op position left right
      (induction number name call group negate binary assign left)
      (induction number name call group negate binary assign right)
  | .assign target position value => assign target position value
      (induction number name call group negate binary assign value)

mutual

/-- How deeply the operands of a term nest.  An operand is as deep as there are brackets, argument
lists and right sides of powers around it, plus one. -/
def depth : Term → Nat
  | number _ _ | name _ _ => 1
  | call _ _ arguments => 1 + depthOfAll arguments
  | group _ inner => 1 + inner.depth
  | negate _ operand => operand.depth
  | binary op _ left right => max left.depth (if op = .pow then 1 + right.depth else right.depth)
  | assign _ _ value => value.depth

/-- How deeply the operands of several terms nest. -/
def depthOfAll : List Term → Nat
  | [] => 0
  | t :: ts => max t.depth (depthOfAll ts)

end

mutual

/-- The names that stand alone: they are read or assigned to. -/
def bare : Term → List String
  | number _ _ => []
  | name text _ => [text]
  | call _ _ arguments => bareOfAll arguments
  | group _ inner => inner.bare
  | negate _ operand => operand.bare
  | binary _ _ left right => left.bare ++ right.bare
  | assign target _ value => target :: value.bare

/-- The names that stand alone in several terms. -/
def bareOfAll : List Term → List String
  | [] => []
  | t :: ts => t.bare ++ bareOfAll ts

end

mutual

/-- The names that are called, each with its number of arguments. -/
def calls : Term → List (String × Nat)
  | number _ _ | name _ _ => []
  | call text _ arguments => (text, arguments.length) :: callsOfAll arguments
  | group _ inner => inner.calls
  | negate _ operand => operand.calls
  | binary _ _ left right => left.calls ++ right.calls
  | assign _ _ value => value.calls

/-- The names that are called in several terms. -/
def callsOfAll : List Term → List (String × Nat)
  | [] => []
  | t :: ts => t.calls ++ callsOfAll ts

end

theorem mem_bareOfAll {ts : List Term} {text : String} :
    text ∈ bareOfAll ts ↔ ∃ t ∈ ts, text ∈ t.bare := by
  induction ts with
  | nil => simp [bareOfAll]
  | cons t ts ih => simp [bareOfAll, ih]

theorem mem_callsOfAll {ts : List Term} {c : String × Nat} :
    c ∈ callsOfAll ts ↔ ∃ t ∈ ts, c ∈ t.calls := by
  induction ts with
  | nil => simp [callsOfAll]
  | cons t ts ih => simp [callsOfAll, ih]

theorem depthOfAll_le {ts : List Term} {d : Nat} : depthOfAll ts ≤ d ↔ ∀ t ∈ ts, t.depth ≤ d := by
  induction ts with
  | nil => simp [depthOfAll]
  | cons t ts ih => rw [depthOfAll, Nat.max_le, ih, List.forall_mem_cons]

/-- A term has an operand. -/
theorem depth_pos (t : Term) : 0 < t.depth := by
  induction t with
  | number | name => exact Nat.one_pos
  | call | group =>
    rw [depth]
    omega
  | negate _ _ ih | assign _ _ _ ih => exact ih
  | binary _ _ _ _ ih => exact Nat.lt_of_lt_of_le ih (Nat.le_max_left ..)

end Term

namespace Script

/-- The statements of a text. -/
def statements (s : Script) : List Term := s.finished.map Prod.fst ++ [s.last]

/-- How deeply the operands of a text nest. -/
def depth (s : Script) : Nat := Term.depthOfAll s.statements

/-- The names that stand alone in a text. -/
def bare (s : Script) : List String := Term.bareOfAll s.statements

/-- The names that are called in a text, each with its number of arguments. -/
def calls (s : Script) : List (String × Nat) := Term.callsOfAll s.statements

end Script

/-! ## Levels -/

/-- A level of precedence, the loosest first. -/
inductive Level where
  | statement
  | sum
  | product
  | signed
  | power
  | element
  deriving DecidableEq, Repr

/-- The level of the terms that a binary operator makes. -/
def Operator.level : Operator → Level
  | add | sub => .sum
  | mul | div | mod => .product
  | pow => .power

/-- A statement with a comma behind it, as it stands in a text. -/
structure Item where
  /-- The tokens of the statement. -/
  tokens : List Placed
  /-- Its tree. -/
  term : Term
  /-- The position of the comma. -/
  comma : Nat

/-- The tokens of several statements, each with its comma. -/
def Item.joined (items : List Item) : List Placed :=
  items.flatMap fun i ↦ i.tokens ++ [⟨.comma, i.comma⟩]

/-- Tokens are a term of a level. -/
inductive Parses : Level → List Placed → Term → Prop
  | number {numeral : List Char} {position : Nat} :
    Parses .element [⟨.number numeral, position⟩] (.number numeral position)
  | name {text : String} {position : Nat} :
    Parses .element [⟨.name text, position⟩] (.name text position)
  | group {position closing : Nat} {ts : List Placed} {t : Term} (inner : Parses .statement ts t) :
    Parses .element (⟨.opening, position⟩ :: (ts ++ [⟨.closing, closing⟩])) (.group position t)
  | callNone {text : String} {position opening closing : Nat} :
    Parses .element [⟨.name text, position⟩, ⟨.opening, opening⟩, ⟨.closing, closing⟩]
      (.call text position [])
  | call {text : String} {position opening closing : Nat} {items : List Item} {ts : List Placed}
    {t : Term} (all : ∀ i ∈ items, Parses .statement i.tokens i.term)
    (last : Parses .statement ts t) :
    Parses .element (⟨.name text, position⟩ :: ⟨.opening, opening⟩ ::
        (Item.joined items ++ (ts ++ [⟨.closing, closing⟩])))
      (.call text position (items.map Item.term ++ [t]))
  | base {ts : List Placed} {t : Term} (element : Parses .element ts t) : Parses .power ts t
  | pow {position : Nat} {ls rs : List Placed} {l r : Term} (left : Parses .element ls l)
    (right : Parses .signed rs r) :
    Parses .power (ls ++ ⟨.operator .pow, position⟩ :: rs) (.binary .pow position l r)
  | unsigned {ts : List Placed} {t : Term} (power : Parses .power ts t) : Parses .signed ts t
  | negate {position : Nat} {ts : List Placed} {t : Term} (power : Parses .power ts t) :
    Parses .signed (⟨.operator .sub, position⟩ :: ts) (.negate position t)
  | factor {ts : List Placed} {t : Term} (signed : Parses .signed ts t) : Parses .product ts t
  | times {op : Operator} {position : Nat} {ls rs : List Placed} {l r : Term}
    (level : op.level = .product) (left : Parses .product ls l) (right : Parses .signed rs r) :
    Parses .product (ls ++ ⟨.operator op, position⟩ :: rs) (.binary op position l r)
  | addend {ts : List Placed} {t : Term} (product : Parses .product ts t) : Parses .sum ts t
  | plus {op : Operator} {position : Nat} {ls rs : List Placed} {l r : Term}
    (level : op.level = .sum) (left : Parses .sum ls l) (right : Parses .product rs r) :
    Parses .sum (ls ++ ⟨.operator op, position⟩ :: rs) (.binary op position l r)
  | value {ts : List Placed} {t : Term} (sum : Parses .sum ts t) : Parses .statement ts t
  | assign {text : String} {position equals : Nat} {ts : List Placed} {t : Term}
    (value : Parses .statement ts t) :
    Parses .statement (⟨.name text, position⟩ :: ⟨.equals, equals⟩ :: ts) (.assign text position t)

/-- Tokens are statements with commas between them. -/
inductive Script.Parses : List Placed → Script → Prop
  | intro {items : List Item} {ts : List Placed} {t : Term}
    (all : ∀ i ∈ items, Reckoner.Parses .statement i.tokens i.term)
    (last : Reckoner.Parses .statement ts t) :
    Script.Parses (Item.joined items ++ ts) ⟨items.map fun i ↦ (i.term, i.comma), t⟩

end Reckoner
