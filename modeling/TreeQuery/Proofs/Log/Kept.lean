import TreeQuery.Log.Logger

/-!
# What a logger keeps

A logger decides about every message for itself. What it keeps of a list of messages is
what it keeps of the first of them, followed by what it keeps of the others, and so a list
may be cut anywhere.

A logger with a memory keeps what it hears, and it hears the messages that are not below
its level. So what it keeps is a part of what is sent, in the same order.

## Theorems

* `Logger.keep_cons`, `Logger.keep_append`: What a logger keeps of messages in a row.
* `Logger.keep_recording`: What a logger with a memory keeps.
-/

namespace TreeQuery.Logger

theorem keep_cons (logger : Logger) (message : Message) (rest : List Message) :
    logger.keep (message :: rest) = (logger.emit message).remembered ++ logger.keep rest :=
  rfl

theorem keep_append (logger : Logger) (earlier later : List Message) :
    logger.keep (earlier ++ later) = logger.keep earlier ++ logger.keep later := by
  induction earlier with
  | nil => rfl
  | cons message rest ih => rw [List.cons_append, keep_cons, keep_cons, ih, List.append_assoc]

/-- A logger with a memory keeps the messages that are not below its level. -/
theorem keep_recording (level : Level) (messages : List Message) :
    (recording level).keep messages =
      messages.filter fun message => decide (level ≤ message.level) := by
  induction messages with
  | nil => rfl
  | cons message rest ih =>
      rw [keep_cons, ih, emit, isEnabled, List.filter_cons]
      by_cases hlevel : level ≤ message.level
      · simp only [recording, hlevel, decide_true, if_true, List.singleton_append]
      · simp only [recording, hlevel, decide_false, Bool.false_eq_true, if_false,
          List.nil_append]

end TreeQuery.Logger
