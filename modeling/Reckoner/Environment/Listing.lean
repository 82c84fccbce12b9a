import Reckoner.Environment.Basic
import Reckoner.Text.Digest

/-!
# Listings

A listing has a line for each variable, with its name and its value, in the order of the names.
The digest of the listing of the active variables tells whether what was read has changed.
-/

set_option autoImplicit false

namespace Reckoner

/-- The line of a variable. -/
def Variable.line (v : Variable) : String := v.name ++ " " ++ v.value.describe ++ "\n"

namespace Environment

/-- The listing of some variables. -/
def listing (vs : List Variable) : String := String.join (vs.map (·.line))

/-- The listing of all variables. -/
def listAll (env : Environment) : String := listing env.sorted

/-- The listing of the active variables. -/
def listActive (env : Environment) : String := listing (env.sorted.filter (·.active))

/-- The digest of the listing of the active variables. -/
def digest (env : Environment) : String := Text.md5 env.listActive

end Environment

end Reckoner
