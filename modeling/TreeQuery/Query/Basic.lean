import TreeQuery.Directive.Extract
import TreeQuery.Log.Logger
import TreeQuery.Query.Located
import TreeQuery.Types.Checker

/-!
# Queries

A query asks something about a node. It may leave messages, and it may fail, for
one of two reasons: a walk left the file, or the documentation behind a type has a
line that declares no directive. Queries that only look at the tree cannot fail
for the second reason and are plain functions into `Except OutOfFile`; inside
others they are used as they are.

A `Context` is what all queries of one traversal share: the checker that they
ask, and the logger that hears their messages.

## Main definitions

* `QueryError`: Why a query fails.
* `Query`: A computation with messages that may fail.
* `Context`: A checker and a logger.
* `Context.run`: The answer of a query, and the messages that the logger kept.
-/

namespace TreeQuery

/-- Why a query fails. -/
inductive QueryError where
  /-- A number in the file leads to no node. -/
  | outOfFile (error : OutOfFile)
  /-- The directives of the type at a node are wrong. -/
  | directive (error : LocatedError)
  deriving DecidableEq

/-- A computation with messages that may fail. -/
abbrev Query := ExceptT QueryError Traced

namespace Query

/-- A walk in the tree as part of a query. -/
def ofWalk (walk : Except OutOfFile α) : Query α :=
  ⟨walk.mapError .outOfFile, []⟩

instance : MonadLift (Except OutOfFile) Query := ⟨ofWalk⟩

/-- A reading of directives as part of a query about `node`, which is where its error is placed. -/
def ofReading (node : Node) (reading : Traced (Except DirectiveError α)) : Query α :=
  ⟨reading.value.mapError fun cause => .directive (.placedAt node cause), reading.messages⟩

end Query

/-- The directives on the symbol of a type. A type without a symbol has none. -/
def Ty.directives (type : Ty) : Traced (Except DirectiveError DirectiveSet) :=
  match type.symbol with
  | some symbol => symbol.directives
  | none => .silent (.ok .empty)

namespace Checker

/-- The directives on the type at a node. A node without a type has none. -/
def directivesAt (checker : Checker) (node : Node) : Query DirectiveSet :=
  match checker.typeAt node with
  | some type => .ofReading node type.directives
  | none => pure .empty

/-- Whether the type at a node has a directive of some kind. -/
def hasDirectiveAt (checker : Checker) (node : Node) (kind : Directive.Kind) : Query Bool :=
  (·.has kind) <$> checker.directivesAt node

end Checker

/-- What all queries of one traversal share. -/
structure Context where
  checker : Checker
  logger : Logger

namespace Context

def silent (checker : Checker) : Context := ⟨checker, .null⟩

/-- The answer of a query, and the messages that the logger kept. -/
def run (context : Context) (query : Checker → Query α) : Except QueryError α × List Message :=
  let result : Traced (Except QueryError α) := query context.checker
  (result.value, context.logger.keep result.messages)

def describe (context : Context) : String :=
  "QueryContext \x7b checker: " ++ context.checker.summary ++ ", log_level: " ++
    context.logger.level.name ++ " \x7d"

end Context

end TreeQuery
