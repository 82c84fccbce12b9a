import Reckoner.Decimal.Text

/-!
# Values

A value is a scalar, a vector of three scalars, or a text.  Its kind decides which operators and
functions apply to it.

* `Value.describe` is the text of a value in listings.
* `Value.same` compares two values of a kind by their contents, numbers as numbers: zero has one
  value with both signs, and what is not a number differs from everything.
-/

set_option autoImplicit false

namespace Reckoner

/-- How real numbers are written: in full for decimal exponents from -4 to 15, with an exponent of
at least two digits otherwise. -/
def realLayout : Decimal.Layout := ⟨-4, 16, 2⟩

/-- The text of a real number. -/
def realText (x : Float) : String := realLayout.text x

/-! ## Vectors -/

/-- A vector in space. -/
structure Vec3 where
  x : Float
  y : Float
  z : Float
  deriving DecidableEq, Inhabited

namespace Vec3

/-- Applies a function to each component. -/
def map (f : Float → Float) (a : Vec3) : Vec3 := ⟨f a.x, f a.y, f a.z⟩

/-- Combines two vectors component by component. -/
def zipWith (f : Float → Float → Float) (a b : Vec3) : Vec3 := ⟨f a.x b.x, f a.y b.y, f a.z b.z⟩

/-- The components in order. -/
def components (a : Vec3) : List Float := [a.x, a.y, a.z]

/-- The sum of the products of the components. -/
def dot (a b : Vec3) : Float := a.x * b.x + a.y * b.y + a.z * b.z

/-- The vector product. -/
def cross (a b : Vec3) : Vec3 :=
  ⟨a.y * b.z - a.z * b.y, a.z * b.x - a.x * b.z, a.x * b.y - a.y * b.x⟩

/-- The Euclidean length. -/
def length (a : Vec3) : Float := Float.sqrt (a.x * a.x + a.y * a.y + a.z * a.z)

/-- The text of a vector. -/
def describe (a : Vec3) : String :=
  "Vec3D(" ++ realText a.x ++ ", " ++ realText a.y ++ ", " ++ realText a.z ++ ")"

end Vec3

/-! ## Values and their kinds -/

/-- The kinds of values. -/
inductive Kind where
  | scalar
  | vector
  | text
  deriving DecidableEq, Repr, Inhabited

/-- The name of a kind in messages. -/
def Kind.name : Kind → String
  | .scalar => "scalar"
  | .vector => "vector"
  | .text => "text"

/-- A value. -/
inductive Value where
  | scalar (x : Float)
  | vector (a : Vec3)
  | text (s : String)
  deriving DecidableEq, Inhabited

namespace Value

/-- The kind of a value. -/
def kind : Value → Kind
  | scalar _ => .scalar
  | vector _ => .vector
  | text _ => .text

/-- The text of a value in listings; a text stands for itself. -/
def describe : Value → String
  | scalar x => realText x
  | vector a => a.describe
  | text s => s

/-- Whether two values are of one kind and have equal contents. -/
def same : Value → Value → Bool
  | scalar x, scalar y => x == y
  | vector a, vector b => a.x == b.x && a.y == b.y && a.z == b.z
  | text s, text t => s == t
  | _, _ => false

end Value

end Reckoner
