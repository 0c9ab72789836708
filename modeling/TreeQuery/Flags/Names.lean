import TreeQuery.Flags.Table

/-!
# Names of numbers

Messages show numbers by name. A table pairs names with numbers of 64 bits, with
sign; several names may share a number, and a number may be a mask of several
bits.

A single number has the name of the first entry that equals it. A mask has the
names of all entries that share a bit with it and are not greater than it. The
comparison is one of numbers, so it keeps out an entry that covers bits beyond
the highest one of the mask, and it says nothing about lower bits.

## Main definitions

* `NameTable`: Names with their numbers, in the order in which they are reported.
* `NameTable.nameOf`: The name of one number.
* `NameTable.namesIn`: The names in a mask.
* `FlagTable.toNames`: A table of flags as a table of numbers.
* `TypeFlags.describe`: The names of a set of type flags, for messages.
-/

namespace TreeQuery

/-- Names with their numbers, in the order in which they are reported. -/
abbrev NameTable := List (String × Int64)

namespace NameTable

/-- What a number without a name is called. -/
def unknown : String := "unknown"

/-- The name of the first entry that equals `value`. -/
def nameOf (table : NameTable) (value : Int64) : String :=
  match table.find? fun entry => entry.2 == value with
  | some entry => entry.1
  | none => unknown

/-- The names of the entries that share a bit with `mask` and are not greater than it. -/
def namesIn (table : NameTable) (mask : Int64) : List String :=
  (table.filter fun entry => mask &&& entry.2 != 0 && decide (entry.2 ≤ mask)).map (·.1)

end NameTable

/-- A table of flags as a table of numbers, in the same order. -/
def FlagTable.toNames (table : FlagTable) : NameTable :=
  table.entries.map fun entry => (entry.1, entry.2.toUInt64.toInt64)

/-- The names in a set of type flags, or `NONE` if it has none. -/
def TypeFlags.describe (flags : TypeFlags) : String :=
  let names := typeFlagTable.toNames.namesIn flags.bits.toUInt64.toInt64
  if names.isEmpty then "NONE" else " | ".intercalate names

end TreeQuery
