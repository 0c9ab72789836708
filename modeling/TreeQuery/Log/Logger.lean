import TreeQuery.Log.Traced

/-!
# Loggers

What becomes of a message. A logger has a level, below which it hears nothing, and
a place where the messages go that it does hear: the console, its own memory, or
nowhere.

The logger that discards everything still has a level. It is the highest one, so
asking whether errors are enabled is answered with yes, although not even an
error leaves a mark.

## Main definitions

* `Logger`: A level and a destination.
* `Logger.emit`, `Logger.emitAll`: The mark that messages leave.
* `Logger.keep`: The messages that a logger remembers.
* `Message.line`: A message as the console shows it.
-/

namespace TreeQuery

/-- Where the messages go that a logger hears. -/
inductive Destination where
  | nowhere
  | console
  | memory
  deriving DecidableEq

/-- What decides over messages. -/
structure Logger where
  level : Level
  destination : Destination
  deriving DecidableEq

/-- The mark that messages leave. -/
structure Mark where
  /-- What the console shows because of them. -/
  printed : String := ""
  /-- What a logger remembers of them. -/
  remembered : List Message := []
  deriving DecidableEq

/-- A message as the console shows it, without the end of the line. -/
def Message.line (message : Message) : String :=
  "[transpiler] " ++ message.level.label ++ ": " ++ message.text

namespace Logger

def null : Logger := ⟨.error, .nowhere⟩

def console (level : Level) : Logger := ⟨level, .console⟩

def recording (level : Level) : Logger := ⟨level, .memory⟩

def isEnabled (logger : Logger) (level : Level) : Bool :=
  decide (logger.level ≤ level)

def emit (logger : Logger) (message : Message) : Mark :=
  if logger.isEnabled message.level then
    match logger.destination with
    | .nowhere => {}
    | .console => { printed := message.line ++ "\n" }
    | .memory => { remembered := [message] }
  else {}

/-- The mark that messages leave together. -/
def emitAll (logger : Logger) (messages : List Message) : Mark :=
  messages.foldr
    (fun message later =>
      let mark := logger.emit message
      ⟨mark.printed ++ later.printed, mark.remembered ++ later.remembered⟩)
    {}

/-- The messages that a logger remembers, in the order in which they were sent. -/
def keep (logger : Logger) (messages : List Message) : List Message :=
  (logger.emitAll messages).remembered

end Logger

end TreeQuery
