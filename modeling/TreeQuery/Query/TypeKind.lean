import TreeQuery.Types.Checker

/-!
# Strings and arrays

Whether a type is a type of strings is seen from its flags. Whether it is an array
is not: flags know objects only, and the answer is in how the type would be
written.

## Main definitions

* `Ty.isString`: Whether the values of a type are strings.
* `Checker.isArray`: Whether a type is written as an array or a tuple.
-/

namespace TreeQuery

/-- Whether the values of a type are strings, for all that its flags say. -/
def Ty.isString (type : Ty) : Bool :=
  type.flags.meets TypeFlags.string || type.flags.meets TypeFlags.stringLike ||
    type.flags.meets TypeFlags.stringLiteral

/-- Whether a type is written as an array or a tuple. -/
def Checker.isArray (checker : Checker) (type : Ty) : Bool :=
  match checker.shapeOf type with
  | some .arrayType | some .tupleType => true
  | _ => false

end TreeQuery
