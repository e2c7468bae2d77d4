/-!
# Keyed entries

Finite maps as lists of entries in ascending order of their keys, with at most one entry per key.
-/

namespace EntityTables

abbrev Keyed (κ α : Type) := List (κ × α)

namespace Keyed

variable {κ α : Type} [DecidableEq κ]

def find? (entries : Keyed κ α) (key : κ) : Option α :=
  match entries with
  | [] => none
  | (k, a) :: rest => if k = key then some a else find? rest key

theorem mem_of_find? {entries : Keyed κ α} {key : κ} {value : α}
    (h : entries.find? key = some value) : (key, value) ∈ entries := by
  induction entries with
  | nil => simp [find?] at h
  | cons entry rest ih =>
    obtain ⟨k, a⟩ := entry
    simp only [find?] at h
    split at h <;> simp_all

/-- Sets the value of a key, in place of the value it has. -/
def insert [LT κ] [DecidableLT κ] (entries : Keyed κ α) (key : κ) (value : α) : Keyed κ α :=
  match entries with
  | [] => [(key, value)]
  | (k, a) :: rest =>
    if k = key then (key, value) :: rest
    else if key < k then (key, value) :: (k, a) :: rest
    else (k, a) :: insert rest key value

def erase (entries : Keyed κ α) (key : κ) : Keyed κ α :=
  match entries with
  | [] => []
  | (k, a) :: rest => if k = key then rest else (k, a) :: erase rest key

def contains (entries : Keyed κ α) (key : κ) : Bool := (find? entries key).isSome

/-- The keys, in ascending order. -/
def keys (entries : Keyed κ α) : List κ := entries.map (·.1)

/-- The values, in ascending order of their keys. -/
def values (entries : Keyed κ α) : List α := entries.map (·.2)

end Keyed

end EntityTables
