import TreeQuery.Tree.File
import TreeQuery.Types.Symbol

/-!
# Types and type checkers

What the library knows of types, and whom it asks about them.

A type has flags and possibly a symbol. The checker that made a type also knows
what it is called and how it would be written; a type that comes from elsewhere
is foreign to it, and of such a type it knows nothing but the flags.

A checker is asked three questions: which type the node at a place has, how a
type would be written, and what it is called. `TypeTable` answers the first from
a table that somebody filled in, one type for each node.

## Main definitions

* `Ty`: A type.
* `Checker`: Whom the queries ask about types.
* `TypeTable`: Types by node.
* `TypeTable.checker`: The checker that answers from a table.
-/

namespace TreeQuery

/-- The ways in which a type can be written. -/
inductive TypeShape where
  | arrayType | tupleType | typeReference | typeLiteral | unionType | intersectionType
  | functionType | literalType | keywordType
  deriving DecidableEq

namespace TypeShape

def all : List TypeShape :=
  [.arrayType, .tupleType, .typeReference, .typeLiteral, .unionType, .intersectionType,
   .functionType, .literalType, .keywordType]

def label : TypeShape → String
  | .arrayType => "ArrayType"
  | .tupleType => "TupleType"
  | .typeReference => "TypeReference"
  | .typeLiteral => "TypeLiteral"
  | .unionType => "UnionType"
  | .intersectionType => "IntersectionType"
  | .functionType => "FunctionType"
  | .literalType => "LiteralType"
  | .keywordType => "KeywordType"

def ofLabel? (label : String) : Option TypeShape :=
  all.find? fun shape => shape.label == label

end TypeShape

/-- What the maker of a type knows beyond its flags and its symbol. -/
structure TypeNotes where
  name : String
  /-- How it would be written, if there is a way. -/
  shape : Option TypeShape

/-- A type. -/
structure Ty where
  flags : TypeFlags
  symbol : Option Symbol
  /-- What its maker knows of it. A foreign type has no notes. -/
  notes : Option TypeNotes

namespace Ty

/-- The type of the objects that a symbol declares, called like the symbol. -/
def object (symbol : Symbol) : Ty :=
  ⟨TypeFlags.object, some symbol, some ⟨symbol.name, none⟩⟩

/-- The same type as it looks to a checker that did not make it. -/
def foreign (type : Ty) : Ty :=
  { type with notes := none }

end Ty

/-- Whom the queries ask about types. -/
structure Checker where
  /-- The type of the expression or declaration at a node, if it has one. -/
  typeAt : Node → Option Ty
  shapeOf : Ty → Option TypeShape
  nameOf : Ty → String
  summary : String

/-- Types by the numbers of nodes. -/
abbrev TypeTable := OrderedMap NodeId Ty

namespace TypeTable

/-- The table that a list of assignments leaves behind. A later one for the same node replaces the
    earlier. -/
def ofList (types : List (NodeId × Ty)) : TypeTable :=
  OrderedMap.ofList types

/-- The checker that answers from a table. It made the types with notes; of any other it tells the
    flags. -/
def checker (table : TypeTable) : Checker where
  typeAt node := table.find? node.id
  shapeOf type := type.notes.bind (·.shape)
  nameOf type :=
    match type.notes with
    | some notes => notes.name
    | none => type.flags.render
  summary :=
    let types := if table.size = 0 then "\x7b\x7d" else "\x7b..\x7d"
    "TestChecker \x7b types: " ++ types ++ " \x7d"

end TypeTable

end TreeQuery
