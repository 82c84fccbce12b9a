import Reckoner.Datum
import Reckoner.Entries

/-!
# Documents

A document is a tree of the kinds of data that the JSON format knows.
-/

set_option autoImplicit false

namespace Reckoner

/-- A document. -/
inductive Document where
  | null
  | bool (b : Bool)
  | int (n : Int)
  | real (x : Float)
  | text (s : String)
  | array (items : List Document)
  | object (fields : List (String × Document))
  deriving Inhabited

namespace Document

mutual

/-- A document as a datum. -/
def toDatum : Document → Datum
  | null => .null
  | bool b => .bool b
  | int n => .int n
  | real x => .real x
  | text s => .text s
  | array items => .list (itemsToData items)
  | object fields => .mapping (fieldsToData fields)

/-- The items of an array as data. -/
def itemsToData : List Document → List Datum
  | [] => []
  | d :: ds => d.toDatum :: itemsToData ds

/-- The fields of an object as entries. -/
def fieldsToData : List (String × Document) → List (Key × Datum)
  | [] => []
  | (key, d) :: rest => (.text key, d.toDatum) :: fieldsToData rest

end

end Document

end Reckoner
