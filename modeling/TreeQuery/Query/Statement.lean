import TreeQuery.Tree.File

/-!
# Statements and their surroundings

Questions about the place of a node in its program that the tree answers alone.

A file is a module as soon as one of its statements exports something. Only the
statements of the program itself count, and not those inside of them.

The value of an expression is discarded where nobody could use it: in a statement
that consists of the expression, in the condition or the increment of a `for`,
and in a fragment that belongs to no statement at all.

## Main definitions

* `Node.isExported`: Whether a statement exports something.
* `SourceFile.isModule`: Whether a file is a module.
* `Node.isDiscarded`: Whether the value of an expression is discarded.
* `Node.isGlobal`: Whether no block is around a node.
-/

namespace TreeQuery

namespace Node

/-- Whether a statement exports something, by its form or by a modifier. -/
def isExported (statement : Node) : Bool :=
  match statement.form with
  | .exportAssignment .. | .exportDeclaration .. => true
  | _ => statement.hasModifier ModifierFlags.exported

/-- Whether the value of an expression is discarded. -/
def isDiscarded (expression : Node) : Except OutOfFile Bool := do
  match ← expression.parent with
  | none => pure true
  | some parent =>
    match parent.form with
    | .expressionStatement _ => pure true
    | .forStatement _ condition increment _ =>
      pure (condition == some expression.id || increment == some expression.id)
    | _ => pure false

/-- Whether a declaration is global: no block is around it. -/
def isGlobal (declaration : Node) : Except OutOfFile Bool :=
  (·.isNone) <$> declaration.firstAbove (·.is .block)

end Node

/-- Whether a file is a module: one of the statements of its program exports something. -/
def SourceFile.isModule (file : SourceFile) : Except OutOfFile Bool :=
  (·.any Node.isExported) <$> file.statements

end TreeQuery
