import Reckoner.Document.Token

/-!
# Reading documents

`Document.parse?` reads the tokens of a text once, from left to right.  It keeps the arrays and
objects that are open, each with the items or fields it has so far.  A key that comes twice in an
object keeps its place and takes the later value.
-/

set_option autoImplicit false

namespace Reckoner.Document

/-- An array or object that is open. -/
inductive Open where
  | array (items : List Document)
  /-- An object that waits for the value of `key`. -/
  | object (fields : List (String × Document)) (key : String)
  deriving Inhabited

/-- What comes next. -/
inductive Awaited where
  | value
  /-- The first item of an array, or its end. -/
  | itemOrEnd
  /-- A key of an object with these fields. -/
  | key (fields : List (String × Document))
  /-- The first key of an object, or its end. -/
  | keyOrEnd
  | colon (fields : List (String × Document)) (key : String)
  /-- What follows a complete value. -/
  | after (d : Document)
  deriving Inhabited

/-- The state of the reader: what is open, the innermost first, and what comes next. -/
structure Reader where
  opened : List Open
  awaited : Awaited
  deriving Inhabited

namespace Reader

/-- The state at the start of a text. -/
def initial : Reader := ⟨[], .value⟩

/-- Reads a token where a value is due. -/
def valueStep (opened : List Open) : Token → Option Reader
  | .openObject => some ⟨opened, .keyOrEnd⟩
  | .openArray => some ⟨.array [] :: opened, .itemOrEnd⟩
  | .text s => some ⟨opened, .after (.text s)⟩
  | .atom d => some ⟨opened, .after d⟩
  | _ => none

/-- Reads a token after the value `d`. -/
def afterStep (d : Document) : List Open → Token → Option Reader
  | .array items :: opened, .comma => some ⟨.array (items ++ [d]) :: opened, .value⟩
  | .array items :: opened, .closeArray => some ⟨opened, .after (.array (items ++ [d]))⟩
  | .object fields key :: opened, .comma => some ⟨opened, .key (putEntry key d fields)⟩
  | .object fields key :: opened, .closeObject =>
    some ⟨opened, .after (.object (putEntry key d fields))⟩
  | _, _ => none

/-- Reads one token. -/
def step (r : Reader) (token : Token) : Option Reader :=
  match r.awaited, r.opened, token with
  | .value, opened, token => valueStep opened token
  | .itemOrEnd, .array _ :: opened, .closeArray => some ⟨opened, .after (.array [])⟩
  | .itemOrEnd, opened, token => valueStep opened token
  | .key fields, opened, .text key => some ⟨opened, .colon fields key⟩
  | .keyOrEnd, opened, .text key => some ⟨opened, .colon [] key⟩
  | .keyOrEnd, opened, .closeObject => some ⟨opened, .after (.object [])⟩
  | .colon fields key, opened, .colon => some ⟨.object fields key :: opened, .value⟩
  | .after d, opened, token => afterStep d opened token
  | _, _, _ => none

/-- The document, if it is complete. -/
def result? (r : Reader) : Option Document :=
  match r with
  | ⟨[], .after d⟩ => some d
  | _ => none

end Reader

/-- The document that a text stands for. -/
def parse? (text : String) : Option Document := do
  let tokens ← Token.scan? text.toList
  let reader ← tokens.foldlM Reader.step Reader.initial
  reader.result?

end Reckoner.Document
