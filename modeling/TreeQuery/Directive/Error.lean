/-!
# Directives that nobody knows

The one way in which reading the directives of a symbol fails: a line opens with
the marker and declares no directive.

## Main definitions

* `DirectiveError`: The line, with the name that it was taken for and its symbol.
* `DirectiveError.message`: What is said about it.
* `DirectiveError.code`: The number under which it is documented.
-/

namespace TreeQuery

/-- A line of documentation that opens with the marker but declares no directive. -/
inductive DirectiveError where
  /-- The name that is reported, the whole line, and the symbol whose documentation has it. -/
  | unrecognized (name line owner : String)
  deriving DecidableEq

namespace DirectiveError

/-- The number under which the error is documented. -/
def code : DirectiveError → Nat
  | unrecognized .. => 100001

def message : DirectiveError → String
  | unrecognized name _ owner => "unrecognized directive '!" ++ name ++ "' on '" ++ owner ++ "'"

end DirectiveError

end TreeQuery
