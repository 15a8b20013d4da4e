/-!
# Ordered maps

A map is the list of its entries in the order in which their keys were first
inserted.  Inserting a key that is present replaces its value in place.
-/

namespace ContractDoc

/-- The entries of a map, in the order of first insertion. -/
abbrev Entries (κ ν : Type) : Type := List (κ × ν)

namespace Entries

variable {κ ν : Type} [DecidableEq κ]

/-- The value of a key. -/
def get? (key : κ) : Entries κ ν → Option ν
  | [] => none
  | (k, v) :: rest => if k = key then some v else get? key rest

/-- Whether a key is present. -/
def has (key : κ) (entries : Entries κ ν) : Bool :=
  (get? key entries).isSome

/-- The map in which `key` has the value `value`. -/
def insert (key : κ) (value : ν) : Entries κ ν → Entries κ ν
  | [] => [(key, value)]
  | (k, v) :: rest =>
      if k = key then (k, value) :: rest else (k, v) :: insert key value rest

/-- The map in which the entries of `changes` have been inserted in order. -/
def update (base changes : Entries κ ν) : Entries κ ν :=
  changes.foldl (fun entries entry => insert entry.1 entry.2 entries) base

/-- The map with the given entries, a later one replacing an earlier one. -/
def ofList (entries : List (κ × ν)) : Entries κ ν :=
  update [] entries

/-- The keys of a map in order. -/
def keys (entries : Entries κ ν) : List κ :=
  List.map Prod.fst entries

theorem get?_insert_self (key : κ) (value : ν) (entries : Entries κ ν) :
    get? key (insert key value entries) = some value := by
  induction entries with
  | nil => simp [insert, get?]
  | cons entry rest ih =>
    by_cases same : entry.1 = key <;> simp [insert, get?, same, ih]

theorem get?_insert_of_ne {key other : κ} (different : other ≠ key) (value : ν)
    (entries : Entries κ ν) :
    get? other (insert key value entries) = get? other entries := by
  induction entries with
  | nil => simp [insert, get?, different.symm]
  | cons entry rest ih =>
    by_cases same : entry.1 = key
    · subst same
      simp [insert, get?, different.symm]
    · simp [insert, get?, same, ih]

end Entries
end ContractDoc
