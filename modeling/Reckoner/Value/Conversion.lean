import Reckoner.Datum
import Reckoner.Decimal.Numeral
import Reckoner.Report
import Reckoner.Whole

/-!
# Values from data, and data from values

* `Value.ofDatum` makes a value of a datum: numbers become scalars, texts texts, and lists and
  tuples of three numbers vectors.  Truth values are no quantities.
* `Value.toForm` gives a value the form a caller asks for.

A whole number beyond all floats has no scalar; that is the one failure without a report of its own.
-/

set_option autoImplicit false

namespace Reckoner

/-- The forms a result can be asked for. -/
inductive Form where
  | asIs
  | real
  | whole
  | scalar
  | tuple
  | vector
  | string
  | text
  | unsupported (name : String)
  deriving DecidableEq, Repr, Inhabited

/-- The name of a form in messages. -/
def Form.name : Form → String
  | asIs => "FuncBaseValue"
  | real => "float"
  | whole => "int"
  | scalar => "FuncBaseScalar"
  | tuple => "tuple"
  | vector => "FuncBaseVector"
  | string => "str"
  | text => "FuncBaseText"
  | unsupported name => name

/-- Why a conversion fails. -/
inductive ConversionError where
  /-- A truth value is not a quantity. -/
  | boolean (b : Bool)
  /-- No value stands for the datum. -/
  | noValue (d : Datum)
  /-- A value of this kind does not have the form. -/
  | noForm (v : Value) (form : Form)
  /-- The scalar has no whole part. -/
  | notFinite (x : Float)
  /-- There is no such form. -/
  | unknownForm (name : String)

/-- The report of a failed conversion. -/
def ConversionError.report : ConversionError → Report
  | boolean b =>
    { kind := .typeConversion
      message := "Cannot store a boolean as a FuncBase value: " ++ (Datum.bool b).shown
      suggestion := some "Use 1 or 0 instead" }
  | noValue d =>
    { kind := .typeConversion
      message := "Cannot convert " ++ d.typeName ++ " to a FuncBase value: " ++ d.shown
      suggestion := some "Use a number, a string, or a sequence of three numbers" }
  | noForm v form =>
    { kind := .typeConversion
      message := "Cannot convert " ++ v.kind.name ++ " to " ++ form.name
      context := some ("Value: " ++ v.describe) }
  | notFinite x =>
    { kind := .typeConversion
      message := "Cannot convert non-finite scalar " ++ realText x ++ " to int" }
  | unknownForm name =>
    { kind := .typeConversion
      message := "Unsupported result kind: <class '" ++ name ++ "'>" }

/-- Why a datum is not taken in as a value. -/
inductive IntakeError where
  | conversion (e : ConversionError)
  /-- A whole number is beyond all floats. -/
  | tooLarge

/-! ## Values from data -/

/-- Whether a datum is a number; a truth value is not. -/
def Datum.isNumber : Datum → Bool
  | int _ | real _ => true
  | _ => false

/-- The float a number stands for. -/
def Datum.toFloat (d : Datum) : Except IntakeError Float :=
  match d with
  | int n => match Decimal.floatOfInt? n with
    | some x => .ok x
    | none => .error .tooLarge
  | real x => .ok x
  | d => .error (.conversion (.noValue d))

/-- A vector of the three numbers of a sequence `d`. -/
def Value.ofItems (d : Datum) : List Datum → Except IntakeError Value
  | [a, b, c] =>
    if a.isNumber && b.isNumber && c.isNumber then do
      return .vector ⟨← a.toFloat, ← b.toFloat, ← c.toFloat⟩
    else .error (.conversion (.noValue d))
  | _ => .error (.conversion (.noValue d))

/-- The value a datum stands for. -/
def Value.ofDatum (d : Datum) : Except IntakeError Value :=
  match d with
  | .value v => .ok v
  | .bool b => .error (.conversion (.boolean b))
  | .int _ | .real _ => d.toFloat.map .scalar
  | .text s => .ok (.text s)
  | .list items | .tuple items => Value.ofItems d items
  | .null | .mapping _ => .error (.conversion (.noValue d))

/-! ## Data from values -/

/-- The whole part of a scalar. -/
def wholeOfScalar (x : Float) : Except ConversionError Datum :=
  match Whole.truncate? x with
  | some n => .ok (.int n)
  | none => .error (.notFinite x)

/-- The components of a vector as a tuple. -/
def Vec3.toDatum (a : Vec3) : Datum := .tuple (a.components.map .real)

/-- A value as the plainest datum with its contents. -/
def Value.toDatum : Value → Datum
  | scalar x => .real x
  | vector a => a.toDatum
  | text s => .text s

/-- Gives a value the form a caller asks for. -/
def Value.toForm (v : Value) (form : Form) : Except ConversionError Datum :=
  match form, v with
  | .asIs, v => .ok (.value v)
  | .real, .scalar x => .ok (.real x)
  | .whole, .scalar x => wholeOfScalar x
  | .scalar, .scalar x => .ok (.value (.scalar x))
  | .tuple, .vector a => .ok a.toDatum
  | .vector, .vector a => .ok (.value (.vector a))
  | .string, .text s => .ok (.text s)
  | .text, .text s => .ok (.value (.text s))
  | .unsupported name, _ => .error (.unknownForm name)
  | form, v => .error (.noForm v form)

end Reckoner
