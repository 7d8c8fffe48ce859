/-!
Tables with one entry per key. Entries stay in the order in which their keys first came; setting a
key that is present replaces its value in place.
-/

namespace EventSourcing

structure Keyed (κ α : Type) where
  entries : List (κ × α) := []
  deriving Repr, DecidableEq

namespace Keyed

variable {κ α : Type} [DecidableEq κ]

def lookup (key : κ) : List (κ × α) → Option α
  | [] => none
  | (k, value) :: rest => if k = key then some value else lookup key rest

def put (key : κ) (value : α) : List (κ × α) → List (κ × α)
  | [] => [(key, value)]
  | (k, old) :: rest => if k = key then (key, value) :: rest else (k, old) :: put key value rest

def find? (table : Keyed κ α) (key : κ) : Option α :=
  lookup key table.entries

def set (table : Keyed κ α) (key : κ) (value : α) : Keyed κ α :=
  ⟨put key value table.entries⟩

def erase (table : Keyed κ α) (key : κ) : Keyed κ α :=
  ⟨table.entries.filter fun entry => entry.1 ≠ key⟩

def contains (table : Keyed κ α) (key : κ) : Bool :=
  (table.find? key).isSome

def keys (table : Keyed κ α) : List κ :=
  table.entries.map (·.1)

def size (table : Keyed κ α) : Nat :=
  table.entries.length

def ofList (pairs : List (κ × α)) : Keyed κ α :=
  pairs.foldl (fun table pair => table.set pair.1 pair.2) {}

theorem lookup_put_self (key : κ) (value : α) (entries : List (κ × α)) :
    lookup key (put key value entries) = some value := by
  induction entries with
  | nil => simp [put, lookup]
  | cons entry rest ih =>
    obtain ⟨k, old⟩ := entry
    by_cases same : k = key <;> simp [put, lookup, same, ih]

theorem lookup_put_of_ne {key other : κ} (different : other ≠ key) (value : α)
    (entries : List (κ × α)) : lookup other (put key value entries) = lookup other entries := by
  induction entries with
  | nil => simp [put, lookup, Ne.symm different]
  | cons entry rest ih =>
    obtain ⟨k, old⟩ := entry
    by_cases same : k = key
    · simp [put, lookup, same, Ne.symm different]
    · by_cases here : k = other
      · subst here
        simp [put, lookup, same]
      · simp [put, lookup, same, here, ih]

@[simp] theorem find?_set_self (table : Keyed κ α) (key : κ) (value : α) :
    (table.set key value).find? key = some value :=
  lookup_put_self key value table.entries

@[simp] theorem find?_set_of_ne (table : Keyed κ α) {key other : κ} (different : other ≠ key)
    (value : α) : (table.set key value).find? other = table.find? other :=
  lookup_put_of_ne different value table.entries

/-- Setting a key changes what is found under that key alone. -/
theorem find?_set (table : Keyed κ α) (key other : κ) (value : α) :
    (table.set key value).find? other = if other = key then some value else table.find? other := by
  by_cases same : other = key
  · subst same
    simp
  · simp [same]

theorem lookup_filter_ne (key other : κ) (entries : List (κ × α)) :
    lookup other (entries.filter fun entry => entry.1 ≠ key) =
      if other = key then none else lookup other entries := by
  induction entries with
  | nil => simp [lookup]
  | cons entry rest ih =>
    obtain ⟨k, value⟩ := entry
    by_cases removed : k = key
    · subst removed
      by_cases same : other = k
      · subst same
        simpa using ih
      · simpa [lookup, same, Ne.symm same] using ih
    · by_cases here : k = other
      · subst here
        simp [lookup, removed]
      · simpa [lookup, removed, here] using ih

/-- Erasing a key changes what is found under that key alone. -/
theorem find?_erase (table : Keyed κ α) (key other : κ) :
    (table.erase key).find? other = if other = key then none else table.find? other :=
  lookup_filter_ne key other table.entries

end Keyed

end EventSourcing
