import TreeQuery.Tree.Draft

/-!
# Fragments built in one go

Most nodes come with others: a call of a property needs a node for the name of
the property, a clause needs one for each type that it lists. The builders below
take names as text and add the nodes for them. Each is a sequence of single
additions, in the order in which they are written here, and fails where the first
of them fails.

The order matters to a caller, because it decides the numbers. A builder adds its
own small nodes first and the node that it returns last, so the caller's nodes
are looked for when some of the small ones are there already.

## Main definitions

* `identifier`, `numericLiteral`, `stringLiteral`: Names and literals.
* `call`, `propertyAccess`, `binary`: Expressions.
* `expressionStatement`, `block`, `variableStatement`: Statements.
* `functionDeclaration`, `classDeclaration`, `heritageClause`: Declarations.
* `arrayBindingPattern`: The names on the left of a destructuring declaration.
-/

namespace TreeQuery.Build

def identifier (text : String) : Build NodeId :=
  push (.identifier text)

def numericLiteral (text : String) : Build NodeId :=
  push (.numericLiteral text)

def stringLiteral (text : String) : Build NodeId :=
  push (.stringLiteral text)

def call (callee : NodeId) (arguments : List NodeId) : Build NodeId :=
  push (.callExpression callee arguments)

def propertyAccess (object : NodeId) (name : String) : Build NodeId := do
  let name ← identifier name
  push (.propertyAccessExpression object name)

def binary (left : NodeId) (operator : Kind) (right : NodeId) : Build NodeId :=
  push (.binaryExpression left operator right)

/-- An expression that stands alone as a statement. -/
def expressionStatement (expression : NodeId) : Build NodeId :=
  push (.expressionStatement expression)

def block (statements : List NodeId) : Build NodeId :=
  push (.block statements)

/-- A function without parameters: its name, the block of its statements, and then itself. -/
def functionDeclaration (name : String) (statements : List NodeId) : Build NodeId := do
  let name ← identifier name
  let body ← block statements
  push (.functionDeclaration (some name) [] (some body))

/-- The types after `extends` or `implements`: for each the name and the type, then the clause. -/
def heritageClause (keyword : Kind) (names : List String) : Build NodeId := do
  let types ← names.mapM fun name => do
    let name ← identifier name
    push (.expressionWithTypeArguments name)
  push (.heritageClause keyword types)

/-- A class with its heritage clauses: its name, and then itself. -/
def classDeclaration (name : String) (heritage : List NodeId) : Build NodeId := do
  let name ← identifier name
  push (.classDeclaration (some name) heritage)

/-- A variable with an optional initial value, in a statement of its own. The result is the
    statement and the declaration in it, which comes first. -/
def variableStatement (name : NodeId) (initialValue : Option NodeId) :
    Build (NodeId × NodeId) := do
  let declaration ← push (.variableDeclaration name initialValue)
  let statement ← push (.variableStatement [declaration])
  pure (statement, declaration)

/-- Names in brackets: for each the name and its element, then the pattern. -/
def arrayBindingPattern (names : List String) : Build NodeId := do
  let elements ← names.mapM fun name => do
    let name ← identifier name
    push (.bindingElement name)
  push (.arrayBindingPattern elements)

end TreeQuery.Build
