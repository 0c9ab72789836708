import TreeQuery.Tree.File

/-!
# Array destructuring

An array is taken apart by a declaration, `let [a, b] = value`, or by an
assignment, `[a, b] = value`. What makes them destructuring is their left side: a
pattern of names in the one, an array literal before a plain `=` in the other.

The question is asked of a child of the declaration or the assignment and looks
at its parent. It does not look which child it is, so that the left side is
answered like the value.

## Main definitions

* `Node.isDestructured`: Whether a node is part of an array destructuring.
-/

namespace TreeQuery.Node

/-- Whether the parent of a node takes an array apart. -/
def isDestructured (node : Node) : Except OutOfFile Bool := do
  match ← node.parent with
  | none => pure false
  | some parent =>
    match parent.form with
    | .variableDeclaration name _ =>
      return (← parent.file.node name).is .arrayBindingPattern
    | .binaryExpression left .equalsToken _ =>
      return (← parent.file.node left).is .arrayLiteralExpression
    | _ => pure false

end TreeQuery.Node
