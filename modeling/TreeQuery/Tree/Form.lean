import TreeQuery.Tree.Kind

/-!
# Forms of nodes

What a node is made of. A tree is kept as a list of nodes in which every node has
a number, and a node names its children by their numbers; it does not contain
them. A form therefore is flat: a shape, with numbers in its slots.

A slot is either required, optional or a list. `children` reads all of them in
the order in which they stand in a program, and no other function knows which
slots a form has. What is said about children here is said about every slot.

## Main definitions

* `NodeId`: The number of a node.
* `Form`: The shapes of nodes, with the numbers of their children.
* `Form.kind`: The kind of a node with this form.
* `Form.children`: The numbers in its slots.
* `Form.text?`: The text of a name or literal.
* `Form.heritage`: The heritage clauses of a class.
-/

namespace TreeQuery

/-- The number of a node within its tree. -/
abbrev NodeId := Nat

/-- The shapes of nodes, with the numbers of their children. -/
inductive Form where
  | sourceFile (statements : List NodeId)
  | identifier (text : String)
  | numericLiteral (text : String)
  | stringLiteral (text : String)
  | classDeclaration (name : Option NodeId) (heritage : List NodeId)
  /-- What a class `extends` or `implements`. -/
  | heritageClause (keyword : Kind) (types : List NodeId)
  | expressionWithTypeArguments (expression : NodeId)
  | functionDeclaration (name : Option NodeId) (parameters : List NodeId) (body : Option NodeId)
  | parameter (name : NodeId)
  | block (statements : List NodeId)
  | variableStatement (declarations : List NodeId)
  | variableDeclaration (name : NodeId) (initialValue : Option NodeId)
  | arrayBindingPattern (elements : List NodeId)
  | bindingElement (name : NodeId)
  | expressionStatement (expression : NodeId)
  | returnStatement (expression : Option NodeId)
  | forStatement (start condition increment : Option NodeId) (body : NodeId)
  /-- An `export =` or `export default`. -/
  | exportAssignment (expression : NodeId)
  /-- An `export` of names, of this file or of another one. -/
  | exportDeclaration (source : Option NodeId)
  | binaryExpression (left : NodeId) (operator : Kind) (right : NodeId)
  | arrayLiteralExpression (elements : List NodeId)
  | callExpression (callee : NodeId) (arguments : List NodeId)
  | propertyAccessExpression (object : NodeId) (name : NodeId)
  deriving DecidableEq

namespace Form

def kind : Form → Kind
  | sourceFile .. => .sourceFile
  | identifier .. => .identifier
  | numericLiteral .. => .numericLiteral
  | stringLiteral .. => .stringLiteral
  | classDeclaration .. => .classDeclaration
  | heritageClause .. => .heritageClause
  | expressionWithTypeArguments .. => .expressionWithTypeArguments
  | functionDeclaration .. => .functionDeclaration
  | parameter .. => .parameter
  | block .. => .block
  | variableStatement .. => .variableStatement
  | variableDeclaration .. => .variableDeclaration
  | arrayBindingPattern .. => .arrayBindingPattern
  | bindingElement .. => .bindingElement
  | expressionStatement .. => .expressionStatement
  | returnStatement .. => .returnStatement
  | forStatement .. => .forStatement
  | exportAssignment .. => .exportAssignment
  | exportDeclaration .. => .exportDeclaration
  | binaryExpression .. => .binaryExpression
  | arrayLiteralExpression .. => .arrayLiteralExpression
  | callExpression .. => .callExpression
  | propertyAccessExpression .. => .propertyAccessExpression

/-- The numbers in the slots of a form, in the order in which they stand in a program. -/
def children : Form → List NodeId
  | identifier _ | numericLiteral _ | stringLiteral _ => []
  | sourceFile statements | block statements => statements
  | classDeclaration name heritage => name.toList ++ heritage
  | heritageClause _ types => types
  | expressionWithTypeArguments expression | expressionStatement expression
  | exportAssignment expression => [expression]
  | functionDeclaration name parameters body => name.toList ++ parameters ++ body.toList
  | parameter name | bindingElement name => [name]
  | variableStatement declarations => declarations
  | variableDeclaration name initialValue => name :: initialValue.toList
  | arrayBindingPattern elements | arrayLiteralExpression elements => elements
  | returnStatement expression => expression.toList
  | forStatement start condition increment body =>
    start.toList ++ condition.toList ++ increment.toList ++ [body]
  | exportDeclaration source => source.toList
  | binaryExpression left _ right => [left, right]
  | callExpression callee arguments => callee :: arguments
  | propertyAccessExpression object name => [object, name]

/-- The text of a name or literal. Other nodes have none. -/
def text? : Form → Option String
  | identifier text | numericLiteral text | stringLiteral text => some text
  | _ => none

/-- The heritage clauses of a class, in the order of the program. Other nodes have none. -/
def heritage : Form → List NodeId
  | classDeclaration _ clauses => clauses
  | _ => []

theorem heritage_subset_children (form : Form) : form.heritage ⊆ form.children := by
  cases form <;> simp [heritage, children]

end Form

end TreeQuery
