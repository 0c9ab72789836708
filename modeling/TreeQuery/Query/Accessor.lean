import TreeQuery.Types.Checker

/-!
# Properties behind functions

A property of an object may be no value but a pair of functions, one that is
called when the property is read and one when it is written. Whether `e.name` is
such a property is a matter of the type of `e`: its symbol must have a member
called `name`, and the flags of that member say which of the functions it has.

Each step of this chain may be missing: the node may be no property access, the
name may have no text, the object no type, the type no symbol, the symbol no
members, the members none of that name. The answer is no in every such case.

## Main definitions

* `Checker.accessedMember?`: The member that a property access names.
* `Checker.hasGetter`, `Checker.hasSetter`: Which functions it has.
-/

namespace TreeQuery.Checker

/-- The member that a property access names, as far as the type of the object is known. -/
def accessedMember? (checker : Checker) (node : Node) : Except OutOfFile (Option Symbol) := do
  match node.form with
  | .propertyAccessExpression object name =>
    match (← node.file.node name).text? with
    | none => pure none
    | some text =>
      let type := checker.typeAt (← node.file.node object)
      pure do (← (← (← type).symbol).members).find? text
  | _ => pure none

/-- Whether a property access names a member with all of the given flags. -/
def accessesMemberWith (checker : Checker) (flags : SymbolFlags) (node : Node) :
    Except OutOfFile Bool :=
  (·.any fun member => member.flags.includes flags) <$> checker.accessedMember? node

/-- Whether a function is called when the property is read. -/
def hasGetter (checker : Checker) (node : Node) : Except OutOfFile Bool :=
  checker.accessesMemberWith SymbolFlags.getAccessor node

/-- Whether a function is called when the property is written. -/
def hasSetter (checker : Checker) (node : Node) : Except OutOfFile Bool :=
  checker.accessesMemberWith SymbolFlags.setAccessor node

end TreeQuery.Checker
