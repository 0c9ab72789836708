/-!
# Maps that remember the order of insertion

A key holds one value, and the keys stay in the order in which they were first
inserted. Inserting under a key that is already there replaces the value and
leaves the key where it stands; the value that had to go is handed back.

`put` makes one pass over the entries and does both things at once: it finds the
old value and puts the new one into its place. That the value handed back is the
one `find?` would have found is a fact about that pass, `fst_insert`, and not a
second look-up.

Two maps with the same entries in a different order hold the same values.
`sameEntries` is that comparison; equality of the structure also compares the
order.

## Main definitions

* `OrderedMap`: Entries in the order of first insertion.
* `OrderedMap.insert`: Set the value of a key, handing back the old one.
* `OrderedMap.find?`: The value of a key.
* `OrderedMap.ofList`: The map that a list of insertions leaves behind.
* `OrderedMap.sameEntries`: Comparison that ignores the order.

## Theorems

* `fst_insert`: Insertion hands back what the key held before.
* `find?_insert`: After an insertion the key holds the new value, other keys
  what they held.
-/

namespace TreeQuery

/-- A map that lists its keys in the order of first insertion. -/
structure OrderedMap (κ : Type u) (α : Type v) where
  /-- The pairs of key and value, first inserted first. -/
  entries : List (κ × α) := []

namespace OrderedMap

variable {κ : Type u} {α : Type v} [DecidableEq κ]

def empty : OrderedMap κ α := ⟨[]⟩

/-- Set `key` to `value` in a list of entries: in the place of the entry with that key, and with
    its old value as first component, or else at the end. -/
def put (key : κ) (value : α) : List (κ × α) → Option α × List (κ × α)
  | [] => (none, [(key, value)])
  | entry :: rest =>
    if entry.1 = key then (some entry.2, (key, value) :: rest)
    else
      let later := put key value rest
      (later.1, entry :: later.2)

/-- Set `key` to `value`. The first component is the value that this replaced. -/
def insert (map : OrderedMap κ α) (key : κ) (value : α) : Option α × OrderedMap κ α :=
  let result := put key value map.entries
  (result.1, ⟨result.2⟩)

def find? (map : OrderedMap κ α) (key : κ) : Option α :=
  (map.entries.find? fun entry => decide (entry.1 = key)).map (·.2)

def contains (map : OrderedMap κ α) (key : κ) : Bool :=
  map.entries.any fun entry => decide (entry.1 = key)

def keys (map : OrderedMap κ α) : List κ :=
  map.entries.map (·.1)

/-- The values, in the order in which their keys were first inserted. -/
def values (map : OrderedMap κ α) : List α :=
  map.entries.map (·.2)

def size (map : OrderedMap κ α) : Nat :=
  map.entries.length

/-- The map that the insertions of a list leave behind, made from left to right. -/
def ofList (insertions : List (κ × α)) : OrderedMap κ α :=
  insertions.foldl (fun map entry => (map.insert entry.1 entry.2).2) empty

/-- Whether two maps give every key the same value, in whatever order they hold the keys. -/
def sameEntries [DecidableEq α] (left right : OrderedMap κ α) : Bool :=
  decide (left.size = right.size) &&
    left.entries.all fun entry => decide (right.find? entry.1 = some entry.2)

theorem fst_put (key : κ) (value : α) (entries : List (κ × α)) :
    (put key value entries).1 =
      (entries.find? fun entry => decide (entry.1 = key)).map (·.2) := by
  induction entries with
  | nil => rfl
  | cons entry rest ih =>
      by_cases h : entry.1 = key
      · simp [put, h]
      · simp [put, h, ih]

theorem find?_put (key : κ) (value : α) (other : κ) (entries : List (κ × α)) :
    ((put key value entries).2.find? fun entry => decide (entry.1 = other)).map (·.2) =
      if key = other then some value
      else (entries.find? fun entry => decide (entry.1 = other)).map (·.2) := by
  induction entries with
  | nil => by_cases h : key = other <;> simp [put, h]
  | cons entry rest ih =>
      by_cases hkey : entry.1 = key
      · by_cases h : key = other <;> simp [put, hkey, h]
      · by_cases hother : entry.1 = other
        · have : key ≠ other := fun h => hkey (hother.trans h.symm)
          rw [put, if_neg hkey, if_neg this]
          simp [hother]
        · rw [put, if_neg hkey]
          simpa [hother] using ih

/-- Insertion hands back what the key held before. -/
theorem fst_insert (map : OrderedMap κ α) (key : κ) (value : α) :
    (map.insert key value).1 = map.find? key :=
  fst_put key value map.entries

/-- After an insertion its key holds the new value, and every other key what it held. -/
theorem find?_insert (map : OrderedMap κ α) (key : κ) (value : α) (other : κ) :
    (map.insert key value).2.find? other = if key = other then some value else map.find? other :=
  find?_put key value other map.entries

end OrderedMap

end TreeQuery
