import TreeQuery.Proofs.Log.Kept
import TreeQuery.Settings.Basic

/-!
# What a console shows

A logger with a memory and a logger with a console hear the same messages if they have the
same level. The one keeps them, the other shows each of them as a line of its own. So what
is on the console is what the memory holds, written out, and nothing else is.

`Destination.mark` keeps the two questions apart, which messages are heard and what becomes
of them. How much is heard depends on the level alone. A logger with a higher level hears a
part of what one with a lower level hears, and that part can be told from what the lower one
has kept.

A line begins with the level. The labels begin with different letters, so the level can be
read off the line whatever the message is, and the message is what follows. Lines that stand
below each other are another matter, since a message may contain line feeds and look like
several.

## Main definitions

* `Message.shown`: Messages as a console shows them.
* `Logger.heard`: The messages that a logger hears.
* `Destination.mark`: What becomes of messages that are heard.

## Theorems

* `Message.line_injective`: A line tells its message.
* `Destination.mark_append`: The mark of messages in two parts.
* `Logger.emit_eq_mark`, `Logger.emitAll_eq_mark`: The mark that messages leave.
* `Logger.keep_recording_of_le`: What a higher level makes of what a lower one has kept.
* `Logger.console_shows_what_is_kept`: Loggers of one level hear the same.
-/

namespace TreeQuery

/-- The messages as a console shows them, each with the end of its line. -/
def Message.shown (messages : List Message) : String :=
  String.join (messages.map fun message => message.line ++ "\n")

/-- The messages that a logger hears, in the order in which they were sent. -/
def Logger.heard (logger : Logger) (messages : List Message) : List Message :=
  messages.filter fun message => logger.isEnabled message.level

/-- The mark of messages that are heard. -/
def Destination.mark (messages : List Message) : Destination → Mark
  | nowhere => {}
  | console => { printed := Message.shown messages }
  | memory => { remembered := messages }

theorem Message.shown_append (earlier later : List Message) :
    shown (earlier ++ later) = shown earlier ++ shown later := by
  rw [shown, List.map_append, String.join_append]
  rfl

-- No label is the beginning of another one: their first letters are different.
theorem Level.eq_of_label_append {left right : Level} {rest other : List Char}
    (h : left.label.toList ++ rest = right.label.toList ++ other) : left = right := by
  have hinitial : left.label.toList.head? = right.label.toList.head? := by
    have hsame := congrArg List.head? h
    rw [List.head?_append, List.head?_append] at hsame
    cases left <;> cases right <;> exact hsame
  revert hinitial
  cases left <;> cases right <;> decide

/-- A line tells the level and the text of its message. -/
theorem Message.line_injective : Function.Injective Message.line := by
  intro left right h
  have hlists := congrArg String.toList h
  simp only [line, String.toList_append, List.append_assoc, List.append_cancel_left_eq] at hlists
  have hlevel := Level.eq_of_label_append hlists
  rw [hlevel, List.append_cancel_left_eq, List.append_cancel_left_eq, String.toList_inj] at hlists
  cases left
  cases right
  exact congr (congrArg Message.mk hlevel) hlists

theorem Destination.mark_append (destination : Destination) (earlier later : List Message) :
    destination.mark (earlier ++ later) =
      ⟨(destination.mark earlier).printed ++ (destination.mark later).printed,
        (destination.mark earlier).remembered ++ (destination.mark later).remembered⟩ := by
  cases destination with
  | nowhere => rfl
  | console => simp only [mark, Message.shown_append, List.append_nil]
  | memory => simp only [mark, String.append_empty]

namespace Logger

theorem heard_append (logger : Logger) (earlier later : List Message) :
    logger.heard (earlier ++ later) = logger.heard earlier ++ logger.heard later :=
  List.filter_append ..

-- One message leaves the mark of what is heard of it, which is the message or nothing.
theorem emit_eq_mark (logger : Logger) (message : Message) :
    logger.emit message = logger.destination.mark (logger.heard [message]) := by
  rw [emit, heard, List.filter_cons]
  by_cases henabled : logger.isEnabled message.level
  · rw [if_pos henabled, if_pos henabled]
    cases logger.destination <;> rfl
  · rw [if_neg henabled, if_neg henabled]
    cases logger.destination <;> rfl

/-- Messages leave the mark of those that are heard. -/
theorem emitAll_eq_mark (logger : Logger) (messages : List Message) :
    logger.emitAll messages = logger.destination.mark (logger.heard messages) := by
  induction messages with
  | nil => cases logger.destination <;> rfl
  | cons message rest ih =>
      have hsplit : logger.emitAll (message :: rest) =
          ⟨(logger.emit message).printed ++ (logger.emitAll rest).printed,
            (logger.emit message).remembered ++ (logger.emitAll rest).remembered⟩ := rfl
      rw [hsplit, emit_eq_mark, ih, ← Destination.mark_append, ← heard_append]
      rfl

/-- What a logger of a higher level keeps is told from what one of a lower level has kept. -/
theorem keep_recording_of_le {low high : Level} (h : low ≤ high) (messages : List Message) :
    (recording high).keep messages =
      ((recording low).keep messages).filter fun message => decide (high ≤ message.level) := by
  rw [keep_recording, keep_recording, List.filter_filter]
  refine List.filter_congr fun message _ => ?_
  by_cases hhigh : high ≤ message.level
  · -- What is high enough for the higher level is so for the lower one.
    have hlow : low ≤ message.level := Nat.le_trans (m := high.value) h hhigh
    rw [decide_eq_true hhigh, decide_eq_true hlow]
    rfl
  · rw [decide_eq_false hhigh]
    rfl

/-- Whatever messages are sent, a logger with a memory holds those that are not below its level, in
    the order in which they were sent, and prints nothing. A logger with a console and the same
    level, be it made directly or by the settings, prints the lines of these messages and nothing
    else. A logger with a memory and a higher level holds those of them that are not below its own
    level. And each line tells the level and the text of its message. -/
theorem console_shows_what_is_kept (level : Level) (messages : List Message) :
    (recording level).emitAll messages =
        { remembered := messages.filter fun message => decide (level ≤ message.level) } ∧
      (∀ logger ∈ [console level, Settings.logger ⟨level⟩], logger.emitAll messages =
        { printed := Message.shown ((recording level).keep messages) }) ∧
      (∀ higher, level ≤ higher → (recording higher).keep messages =
        ((recording level).keep messages).filter fun message =>
          decide (higher ≤ message.level)) ∧
      Function.Injective Message.line := by
  refine ⟨emitAll_eq_mark (recording level) messages, ?_,
    fun higher hlevel => keep_recording_of_le hlevel messages, Message.line_injective⟩
  have hconsole : (console level).emitAll messages =
      { printed := Message.shown ((recording level).keep messages) } := by
    rw [emitAll_eq_mark, keep_recording]
    rfl
  -- The settings ask for the same logger.
  exact List.forall_mem_cons.mpr ⟨hconsole, List.forall_mem_singleton.mpr hconsole⟩

/-- Of three messages the first is not heard, and the second looks like two lines, the latter of
    which is the line of the third. -/
theorem console_shows_what_is_kept_forged :
    ((recording .info).emitAll [⟨.debug, "a"⟩, ⟨.info, "b\n[transpiler] ERROR: c"⟩,
        ⟨.error, "c"⟩]).remembered =
      [⟨.info, "b\n[transpiler] ERROR: c"⟩, ⟨.error, "c"⟩] ∧
    ((Settings.logger ⟨.info⟩).emitAll [⟨.debug, "a"⟩, ⟨.info, "b\n[transpiler] ERROR: c"⟩,
        ⟨.error, "c"⟩]).printed =
      "[transpiler] INFO: b\n[transpiler] ERROR: c\n[transpiler] ERROR: c\n" ∧
    Level.info ≤ Level.error ∧ (recording .error).keep [⟨.debug, "a"⟩,
        ⟨.info, "b\n[transpiler] ERROR: c"⟩, ⟨.error, "c"⟩] = [⟨.error, "c"⟩] := by
  rcases console_shows_what_is_kept .info [⟨.debug, "a"⟩, ⟨.info, "b\n[transpiler] ERROR: c"⟩,
    ⟨.error, "c"⟩] with ⟨hkept, hshown, hhigher, _⟩
  have hlevel : Level.info ≤ Level.error := by decide
  refine ⟨congrArg Mark.remembered hkept, ?_, hlevel, (hhigher .error hlevel).trans ?_⟩
  · rw [hshown _ (List.mem_cons_of_mem _ List.mem_cons_self), keep, hkept]
    decide
  · rw [keep, hkept]
    decide

end Logger

end TreeQuery
