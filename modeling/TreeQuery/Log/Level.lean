/-!
# Severities

How much a message matters. The levels are ordered, and a logger names the least
one that it still wants to hear.

## Main definitions

* `Level`: The four severities.
* `Level.value`: Their numbers, which give the order.
* `Level.label`: The name in front of a message.
-/

namespace TreeQuery

/-- How much a message matters. -/
inductive Level where
  | debug | info | warn | error
  deriving DecidableEq

namespace Level

def all : List Level := [.debug, .info, .warn, .error]

/-- The number of a level. A greater number is more severe. -/
def value : Level → Nat
  | .debug => 0
  | .info => 1
  | .warn => 2
  | .error => 3

instance : LE Level where
  le left right := left.value ≤ right.value

instance (left right : Level) : Decidable (left ≤ right) :=
  inferInstanceAs (Decidable (left.value ≤ right.value))

/-- The level where nothing else is said. -/
def standard : Level := .warn

def label : Level → String
  | .debug => "DEBUG"
  | .info => "INFO"
  | .warn => "WARN"
  | .error => "ERROR"

/-- The name of a level in a description of a query's surroundings. -/
def name : Level → String
  | .debug => "Debug"
  | .info => "Info"
  | .warn => "Warn"
  | .error => "Error"

/-- The levels that are not more severe than this one, the least severe first. -/
def upTo (level : Level) : List Level :=
  all.filter fun other => decide (other ≤ level)

end Level

end TreeQuery
