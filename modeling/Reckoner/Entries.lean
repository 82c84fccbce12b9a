/-!
# Entries in order

A list of keys with values, in which each key stands once, at the place where it was first put.

* `putEntry` gives a key a value, in place of an earlier one.
* `ofEntries` puts several entries one after the other.
-/

set_option autoImplicit false

namespace Reckoner

variable {κ α : Type} [BEq κ]

/-- Gives a key a value: at the place of the key if there is one, at the end otherwise. -/
def putEntry (key : κ) (value : α) : List (κ × α) → List (κ × α)
  | [] => [(key, value)]
  | (k, v) :: rest => if k == key then (k, value) :: rest else (k, v) :: putEntry key value rest

/-- Puts entries one after the other. -/
def ofEntries (entries : List (κ × α)) : List (κ × α) :=
  entries.foldl (fun done entry => putEntry entry.1 entry.2 done) []

/-- A new key stands behind the others. -/
theorem putEntry_of_not_mem [LawfulBEq κ] {key : κ} {value : α} {entries : List (κ × α)}
    (h : key ∉ entries.map Prod.fst) : putEntry key value entries = entries ++ [(key, value)] := by
  induction entries with
  | nil => rfl
  | cons entry entries ih =>
    rw [List.map_cons, List.mem_cons, not_or] at h
    rw [putEntry, if_neg (by simpa using Ne.symm h.1), ih h.2]
    rfl

end Reckoner
