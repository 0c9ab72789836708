import TreeQuery.Query.Basic

/-!
# Functions that return several values

A function whose type is marked `!TupleReturn` returns several values where others
return one array. The mark is looked for in three places: on a type that is at
hand, on the function that a call calls, and on the function around a node.

The last two look at a single node besides the one they are asked about, the
callee or the nearest function declaration above, and a wrong directive there is
reported at that node. A type alone has no place, and its error is reported
without one.

## Main definitions

* `Ty.isTupleReturn`: Whether a type of functions is marked.
* `Checker.isTupleReturnCall`: Whether the callee of a call is.
* `Checker.isInTupleReturn`: Whether the function around a node is.
-/

namespace TreeQuery

/-- Whether a type of functions is marked as returning several values. -/
def Ty.isTupleReturn (type : Ty) : Traced (Except DirectiveError Bool) :=
  let reading := type.directives
  ⟨reading.value.map (·.has .tupleReturn), reading.messages⟩

namespace Checker

/-- Whether a call calls a function that is marked. Other nodes are no such call. -/
def isTupleReturnCall (checker : Checker) (node : Node) : Query Bool :=
  match node.form with
  | .callExpression callee _ => do
    checker.hasDirectiveAt (← node.file.node callee) .tupleReturn
  | _ => pure false

/-- Whether the nearest function declaration above a node is marked. -/
def isInTupleReturn (checker : Checker) (node : Node) : Query Bool := do
  match ← node.firstAbove (·.is .functionDeclaration) with
  | some function => checker.hasDirectiveAt function .tupleReturn
  | none => pure false

end Checker

end TreeQuery
