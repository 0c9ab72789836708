/-!
# Sets of flags

A set of flags is a word of 32 bits. Which bits have a name is said by a table
of pairs, and a name may stand for one bit, for several, or for none. A set may
hold bits that no name covers; they are kept and compared like any other.

`Flags` takes its table as a parameter. Types, symbols and modifiers each have a
table of their own, so their sets are different types that share the operations
below, and one cannot be passed for another.

## Main definitions

* `FlagTable`: Names of bit patterns, in the order of their declaration.
* `Flags`: A set of flags described by a table.
* `Flags.meets`: Whether two sets have a bit in common.
* `Flags.includes`: Whether a set holds every bit of another.
* `Flags.covering`: The names that spell a set, and the bits they leave over.
* `Flags.render`: The names of a set in parentheses.
-/

namespace TreeQuery

/-- Names of bit patterns, in the order of their declaration. -/
structure FlagTable where
  title : String
  entries : List (String × UInt32)

/-- A set of flags whose bits are named by `table`. -/
structure Flags (table : FlagTable) where
  /-- The bits of the set, named or not. -/
  bits : UInt32
  deriving DecidableEq

namespace Flags

variable {table : FlagTable}

def none : Flags table := ⟨0⟩

/-- Whether two sets have a bit in common. -/
def meets (left right : Flags table) : Bool :=
  left.bits &&& right.bits != 0

/-- Whether `left` holds every bit of `right`. -/
def includes (left right : Flags table) : Bool :=
  left.bits &&& right.bits == right.bits

/-- The names that spell `bits`, in the order of the table, and the bits that are left. A name is
    taken if all its bits are set and at least one of them is still left over. -/
def covering (bits : UInt32) : List (String × UInt32) → UInt32 → List String × UInt32
  | [], left => ([], left)
  | (name, value) :: rest, left =>
    if bits &&& value == value && left &&& value != 0 then
      let later := covering bits rest (left &&& ~~~value)
      (name :: later.1, later.2)
    else covering bits rest left

def hexadecimal (bits : UInt32) : String :=
  "0x" ++ String.ofList (Nat.toDigits 16 bits.toNat)

/-- The set as text: the title of its table, and in parentheses the names that spell the set. Bits
    without a name come last, as one number; the empty set is the number zero. -/
def render (flags : Flags table) : String :=
  let spelled := covering flags.bits table.entries flags.bits
  let parts :=
    if flags.bits = 0 ∨ spelled.2 ≠ 0 then spelled.1 ++ [hexadecimal spelled.2] else spelled.1
  table.title ++ "(" ++ " | ".intercalate parts ++ ")"

end Flags

end TreeQuery
