import TreeQuery.Directive.Error
import TreeQuery.Tree.File

/-!
# Errors with a place

A line that declares no directive belongs to a symbol, and a symbol is reached
from some node of a program. The error that a query reports names that node: its
kind, its file and the text that it covers. The node is the one whose type led to
the symbol, and not the one that the query was asked about.

## Main definitions

* `LocatedError`: An error in the directives of the type at a node.
* `LocatedError.placedAt`: The error, with the place of a node.
* `Diagnostic`, `LocatedError.diagnostic`: The form in which a user sees it.
-/

namespace TreeQuery

/-- An error in the directives of the type at a node. -/
structure LocatedError where
  kind : Kind
  file : String
  range : Range
  cause : DirectiveError
  deriving DecidableEq

/-- How a diagnostic is meant. -/
inductive Diagnostic.Category where
  | warning | error | suggestion | message
  deriving DecidableEq

def Diagnostic.Category.label : Category → String
  | .warning => "Warning"
  | .error => "Error"
  | .suggestion => "Suggestion"
  | .message => "Message"

/-- A message to the user about a part of a program. -/
structure Diagnostic where
  category : Diagnostic.Category
  code : Nat
  file : Option String
  start : Nat
  length : Nat
  text : String

namespace LocatedError

def placedAt (node : Node) (cause : DirectiveError) : LocatedError :=
  ⟨node.kind, node.file.name, node.range, cause⟩

/-- The number under which the error is documented. -/
def code (error : LocatedError) : Nat :=
  error.cause.code

/-- The error on one line: file, position, and what is wrong. -/
def message (error : LocatedError) : String :=
  error.file ++ ":" ++ toString error.range.start ++ ": " ++ error.cause.message

def diagnostic (error : LocatedError) : Diagnostic where
  category := .error
  code := error.code
  file := some error.file
  start := error.range.start
  length := error.range.width
  text := error.cause.message

end LocatedError

end TreeQuery
