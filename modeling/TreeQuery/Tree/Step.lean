import TreeQuery.Tree.Fragment

/-!
# Build steps

The builders as data. A list of steps is a recipe for a tree: it is run from left
to right on a draft, and it either ends with a draft or stops at the first step
that names a node which is not there. Whatever holds after every recipe holds of
every tree that the builders can make.

## Main definitions

* `Step`: One call of a builder.
* `Placed`: What a step hands back.
* `Step.run`: Carry out one step.
* `Run`: What became of a recipe: the results of the steps that succeeded, and the
  draft or the node that was missing.
* `Draft.run`: Carry out a recipe.
-/

namespace TreeQuery

/-- One call of a builder. -/
inductive Step where
  | node (form : Form) (modifiers : ModifierFlags)
  | range (id : NodeId) (covered : Range)
  | identifier (text : String)
  | numericLiteral (text : String)
  | stringLiteral (text : String)
  | call (callee : NodeId) (arguments : List NodeId)
  | propertyAccess (object : NodeId) (name : String)
  | binary (left : NodeId) (operator : Kind) (right : NodeId)
  | expressionStatement (expression : NodeId)
  | block (statements : List NodeId)
  | functionDeclaration (name : String) (statements : List NodeId)
  | heritageClause (keyword : Kind) (names : List String)
  | classDeclaration (name : String) (heritage : List NodeId)
  | variableStatement (name : NodeId) (initialValue : Option NodeId)
  | arrayBindingPattern (names : List String)
  deriving DecidableEq

/-- What a step hands back. -/
inductive Placed where
  /-- The step changed nodes that were there already. -/
  | nothing
  /-- The node that the step was made for. -/
  | node (id : NodeId)
  /-- A statement, and the declaration in it. -/
  | declared (statement declaration : NodeId)
  deriving DecidableEq

namespace Step

def run : Step → Build Placed
  | node form modifiers => .node <$> Build.pushWith form modifiers
  | range id covered => (fun _ => .nothing) <$> Build.setRange id covered
  | identifier text => .node <$> Build.identifier text
  | numericLiteral text => .node <$> Build.numericLiteral text
  | stringLiteral text => .node <$> Build.stringLiteral text
  | call callee arguments => .node <$> Build.call callee arguments
  | propertyAccess object name => .node <$> Build.propertyAccess object name
  | binary left operator right => .node <$> Build.binary left operator right
  | expressionStatement expression => .node <$> Build.expressionStatement expression
  | block statements => .node <$> Build.block statements
  | functionDeclaration name statements => .node <$> Build.functionDeclaration name statements
  | heritageClause keyword names => .node <$> Build.heritageClause keyword names
  | classDeclaration name heritage => .node <$> Build.classDeclaration name heritage
  | variableStatement name initialValue =>
    (fun ids => .declared ids.1 ids.2) <$> Build.variableStatement name initialValue
  | arrayBindingPattern names => .node <$> Build.arrayBindingPattern names

end Step

/-- What became of a recipe. -/
structure Run where
  /-- What the steps handed back that could be carried out. -/
  placed : List Placed
  /-- The draft after the last step, or the node that was missing. -/
  outcome : Except MissingNode Draft

/-- Carry out a recipe, from left to right, up to the first step that fails. -/
def Draft.run (draft : Draft) : List Step → Run
  | [] => ⟨[], .ok draft⟩
  | step :: rest =>
    match step.run draft with
    | .error missing => ⟨[], .error missing⟩
    | .ok (result, next) =>
      let later := next.run rest
      ⟨result :: later.placed, later.outcome⟩

end TreeQuery
