import Reckoner.Value.Basic
import Reckoner.Text.Quoted
import Reckoner.Whole

/-!
# Data from outside

A datum is what callers hand in and get back: nothing, truth values, whole and real numbers, texts,
lists, tuples, mappings, and values.  This file shows a datum as text.

* `Datum.shown` quotes texts, so that a shown datum can be told from any other.
* `Datum.plain` leaves a text as it is.
* `Datum.typeName` is the name of a datum's type in messages.

A key of a mapping is what never changes: any of these but lists and mappings.  `Key.same` tells
whether two keys find the same entry.

Every whole number has a text, however many digits it has: showing a datum has no limit on digits,
and never fails.
-/

set_option autoImplicit false

namespace Reckoner

/-- A key of a mapping. -/
inductive Key where
  | null
  | bool (b : Bool)
  | int (n : Int)
  | real (x : Float)
  | text (s : String)
  | tuple (items : List Key)
  | value (v : Value)
  deriving Inhabited

/-- What callers hand in and get back. -/
inductive Datum where
  | null
  | bool (b : Bool)
  | int (n : Int)
  | real (x : Float)
  | text (s : String)
  | list (items : List Datum)
  | tuple (items : List Datum)
  | mapping (entries : List (Key × Datum))
  | value (v : Value)
  deriving Inhabited

/-! ## Texts -/

/-- The text of a truth value. -/
def truthText (b : Bool) : String := if b then "True" else "False"

/-- Texts between commas. -/
def commaSeparated (items : List String) : String := ", ".intercalate items

/-- A tuple of one item keeps a comma, which tells it from an item in brackets. -/
def tupleText (items : List String) : String :=
  match items with
  | [item] => "(" ++ item ++ ",)"
  | _ => "(" ++ commaSeparated items ++ ")"

/-- The type of a value, as outsiders call it. -/
def Value.typeName : Value → String
  | scalar _ => "FuncBaseScalar"
  | vector _ => "FuncBaseVector"
  | text _ => "FuncBaseText"

/-- The text of a value that tells its type and contents. -/
def Value.shown : Value → String
  | scalar x => "FuncBaseScalar(value=" ++ realText x ++ ")"
  | vector a =>
    "FuncBaseVector(x=" ++ realText a.x ++ ", y=" ++ realText a.y ++ ", z=" ++ realText a.z ++ ")"
  | text s => "FuncBaseText(value=" ++ Text.quoted s ++ ")"

namespace Key

mutual

/-- The text of a key, texts quoted. -/
def shown : Key → String
  | null => "None"
  | bool b => truthText b
  | int n => toString n
  | real x => realText x
  | text s => Text.quoted s
  | tuple items => tupleText (shownAll items)
  | value v => v.shown

/-- The texts of several keys. -/
def shownAll : List Key → List String
  | [] => []
  | key :: keys => key.shown :: shownAll keys

end

/-- The text of a key, where a text stands for itself. -/
def plain : Key → String
  | text s => s
  | key => key.shown

/-- The whole number that a key is equal to.  Truth values count as one and zero. -/
def whole? : Key → Option Int
  | bool b => some (if b then 1 else 0)
  | int n => some n
  | real x => if Whole.isWhole x then Whole.truncate? x else none
  | _ => none

mutual

/-- Whether two keys find the same entry.  Numbers are compared as numbers. -/
def same : Key → Key → Bool
  | null, null => true
  | text s, text t => s == t
  | real x, real y => x == y
  | tuple items, tuple items' => sameAll items items'
  | value v, value w => v.same w
  | key, key' =>
    match key.whole?, key'.whole? with
    | some m, some n => m == n
    | _, _ => false

/-- Whether several keys are the same one by one. -/
def sameAll : List Key → List Key → Bool
  | [], [] => true
  | key :: keys, key' :: keys' => same key key' && sameAll keys keys'
  | _, _ => false

end

instance : BEq Key := ⟨same⟩

end Key

namespace Datum

/-- The name of a datum's type. -/
def typeName : Datum → String
  | null => "NoneType"
  | bool _ => "bool"
  | int _ => "int"
  | real _ => "float"
  | text _ => "str"
  | list _ => "list"
  | tuple _ => "tuple"
  | mapping _ => "dict"
  | value v => v.typeName

mutual

/-- The text of a datum, texts quoted. -/
def shown : Datum → String
  | null => "None"
  | bool b => truthText b
  | int n => toString n
  | real x => realText x
  | text s => Text.quoted s
  | list items => "[" ++ commaSeparated (shownItems items) ++ "]"
  | tuple items => tupleText (shownItems items)
  | mapping entries => "\x7b" ++ commaSeparated (shownEntries entries) ++ "\x7d"
  | value v => v.shown

/-- The texts of several data. -/
def shownItems : List Datum → List String
  | [] => []
  | d :: ds => d.shown :: shownItems ds

/-- The texts of the entries of a mapping. -/
def shownEntries : List (Key × Datum) → List String
  | [] => []
  | (k, d) :: rest => (k.shown ++ ": " ++ d.shown) :: shownEntries rest

end

/-- The text of a datum, where a text stands for itself. -/
def plain : Datum → String
  | text s => s
  | d => d.shown

end Datum

end Reckoner
