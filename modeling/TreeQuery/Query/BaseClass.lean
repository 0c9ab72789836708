import TreeQuery.Flags.Names
import TreeQuery.Query.Basic

/-!
# Base classes

What a class extends. The program text decides first: the base is the first type
of the first `extends` clause. If that clause lists no type there is no base,
whatever other clauses follow. Then the type at that place decides: without a
type there is no base to speak of, and a base marked `!PureAbstract` only declares
a shape and counts as none.

## Main definitions

* `Node.baseExpression`: The place where a class names its base.
* `Checker.baseType`: The type that a class inherits from.
-/

namespace TreeQuery

/-- The first type of an `extends` clause, in a further layer that tells an empty clause from
    another kind of node. -/
def Form.extended? : Form → Option (Option NodeId)
  | .heritageClause .extendsKeyword types => some types.head?
  | _ => none

/-- The place where a class names its base: the first type of its first `extends` clause. -/
def Node.baseExpression (declaration : Node) : Except OutOfFile (Option Node) := do
  match (← declaration.heritageClauses).findSome? fun clause => clause.form.extended? with
  | some (some id) => some <$> declaration.file.node id
  | _ => pure none

namespace Checker

/-- What is said about a base that is not inherited from. -/
def pureAbstractMessage (checker : Checker) (declaration : Node) (type : Ty) : String :=
  "base '" ++ checker.nameOf type ++ "' [" ++ TypeFlags.describe type.flags ++ "] of " ++
    declaration.describe ++ " is pure abstract; not inheriting from it"

/-- The type that a class inherits from, if it names one that resolves and is not pure abstract. -/
def baseType (checker : Checker) (declaration : Node) : Query (Option Ty) := do
  match ← declaration.baseExpression with
  | none => pure none
  | some base =>
    match checker.typeAt base with
    | none => pure none
    | some type =>
      let directives ← Query.ofReading base type.directives
      if directives.has .pureAbstract then
        (Traced.debug (checker.pureAbstractMessage declaration type) : Traced Unit)
        pure none
      else pure (some type)

end Checker

end TreeQuery
