import TreeQuery.Proofs.Directive.Messages
import TreeQuery.Proofs.Log.Kept

/-!
# The trace of a reading that succeeds

Where every line declares a directive, the reading goes to the end. On the way it has
reported each kind that came again, and at the end it says how many kinds there are and
which. Both are told from the kinds that the lines declare: the reports by what stands
before each of them, the last message by what is left when repetitions are dropped. What
the lines have besides, their words and the case of their names, is not said.

All of this is said at the lowest level. A logger with a memory gains all of it at that
level and nothing at any other, behind what it has heard before. What the reading answers
does not depend on who listens.

## Main definitions

* `Directive.foundReport`: The message about the kinds that were found.
* `Directive.LeavesTrace`: What a logger with a memory gains from a reading.

## Theorems

* `declaredKinds_eq_nil_iff`: Lines that all declare a directive declare some kind.
* `messages_gather_of_isSome`: What a reading to the end sends.
* `level_of_mem_messages`: It is all sent at the lowest level.
* `success_leaves_exact_trace`: What a reading that succeeds leaves with a logger.
-/

namespace TreeQuery

namespace Directive

/-- The message about the kinds that were found. -/
def foundReport (owner : String) (kinds : List Kind) : Message :=
  ⟨.debug, "'" ++ owner ++ "' carries " ++ toString kinds.length ++ " directive(s): " ++
    ", ".intercalate (kinds.map Kind.name)⟩

/-- What a logger with a memory gains from the reading of a symbol, behind what it has kept before.
    The set is what is read. -/
structure LeavesTrace (symbol : Symbol) (set : DirectiveSet) : Prop where
  /-- The kinds of the set, in the order in which they first occur in the lines. -/
  kinds_eq : set.kinds = (declaredKinds (linesOf symbol.documentation)).eraseDups
  /-- A report for every line whose kind already stands among the lines before it, and then, if
      there are any lines, one message about the kinds. -/
  kept_debug : ∀ before : List Message,
    (Logger.recording .debug).keep (before ++ symbol.directives.messages) =
      (Logger.recording .debug).keep before ++
        (comingAgain [] (declaredKinds (linesOf symbol.documentation))).map
          (fun kind => ⟨.debug, "'" ++ symbol.name ++ "' declares !" ++ kind.name ++
            " more than once; keeping the last one"⟩) ++
        if linesOf symbol.documentation = [] then [] else [foundReport symbol.name set.kinds]
  /-- Nothing is said at any other level, and all others are higher. -/
  kept_higher : ∀ level, level ≠ .debug → ∀ before : List Message,
    (Logger.recording level).keep (before ++ symbol.directives.messages) =
      (Logger.recording level).keep before

theorem declaredKinds_eq_nil_iff {lines : List String} (h : ∀ line ∈ lines, (ofLine? line).isSome) :
    declaredKinds lines = [] ↔ lines = [] := by
  rw [declaredKinds, List.map_eq_nil_iff, List.filterMap_eq_nil_iff]
  constructor
  · intro hnone
    refine List.eq_nil_iff_forall_not_mem.mpr fun line hline => ?_
    exact Option.isSome_iff_ne_none.mp (h line hline) (hnone line hline)
  · rintro rfl line hline
    exact absurd hline List.not_mem_nil

-- A set is empty if it has no kinds, and its last message is about these kinds.
theorem messages_gather_nil (owner : String) (set : DirectiveSet) :
    (gather owner set []).messages =
      if set.kinds = [] then [] else [foundReport owner set.kinds] := by
  have hsize : set.size = set.kinds.length := (List.length_map _).symm
  rw [foundReport, ← hsize]
  cases hentries : set.entries.entries with
  | nil => simp only [gather, DirectiveSet.isEmpty, DirectiveSet.kinds, OrderedMap.keys, hentries,
      List.isEmpty_nil, List.map_nil, if_true]
  | cons entry rest => simp only [gather, DirectiveSet.isEmpty, DirectiveSet.kinds, OrderedMap.keys,
      hentries, List.isEmpty_cons, List.map_cons, Bool.false_eq_true, List.cons_ne_nil, if_false,
      summaryMessage]

/-- A reading to the end sends the reports about kinds that come again, and then the message about
    the kinds that there are. -/
theorem messages_gather_of_isSome (owner : String) {lines : List String}
    (h : ∀ line ∈ lines, (ofLine? line).isSome) :
    (gather owner .empty lines).messages =
      (comingAgain [] (declaredKinds lines)).map (repeatReport owner) ++
        if lines = [] then [] else [foundReport owner (declaredKinds lines).eraseDups] := by
  have hmessages := messages_gather_append owner [] lines [] h
  rw [List.append_nil, List.map_nil, List.nil_append, messages_gather_nil,
    DirectiveSet.kinds_ofList] at hmessages
  have hempty : ((lines.filterMap ofLine?).map Directive.kind).eraseDups = [] ↔ lines = [] := by
    rw [← declaredKinds_eq_nil_iff h, declaredKinds]
    constructor
    · intro hnil
      refine List.eq_nil_iff_forall_not_mem.mpr fun kind hkind => ?_
      rw [← List.mem_eraseDups, hnil] at hkind
      exact List.not_mem_nil hkind
    · intro hnil
      rw [hnil, List.eraseDups_nil]
  simp only [hempty] at hmessages
  exact hmessages

/-- Whatever the lines are, all that a reading sends is of the lowest level. -/
theorem level_of_mem_messages (owner : String) (lines : List String) (set : DirectiveSet) :
    ∀ message ∈ (gather owner set lines).messages, message.level = .debug := by
  induction lines generalizing set with
  | nil =>
      intro message hmessage
      rw [messages_gather_nil] at hmessage
      split at hmessage
      · exact absurd hmessage List.not_mem_nil
      · rw [List.mem_singleton.mp hmessage, foundReport]
  | cons line rest ih =>
      intro message hmessage
      rw [gather] at hmessage
      split at hmessage
      · exact absurd hmessage List.not_mem_nil
      · rcases List.mem_append.mp hmessage with hrepeated | hlater
        · rcases List.mem_map.mp hrepeated with ⟨_, _, rfl⟩
          rfl
        · exact ih _ message hlater

end Directive

/-- What is read of a symbol is the same for all who listen. If the reading succeeds, a logger with
    a memory that hears everything gains a report for every line whose kind already stands among
    the lines before it, and then, unless there are no lines, one message with the number of
    different kinds and their names, in the order of the set. At any other level it gains
    nothing. -/
theorem success_leaves_exact_trace (symbol : Symbol) :
    (∀ logger other : Logger,
      (logger.hear symbol.directives).1 = (other.hear symbol.directives).1) ∧
    ∀ set, symbol.directives.value = .ok set → Directive.LeavesTrace symbol set := by
  refine ⟨fun logger other => rfl, fun set hset => ?_⟩
  rcases (Directive.value_directives_eq_ok_iff symbol set).mp hset with ⟨hall, rfl⟩
  have hlevel : ∀ message ∈ symbol.directives.messages, message.level = .debug :=
    Directive.level_of_mem_messages symbol.name _ .empty
  have hkinds := DirectiveSet.kinds_ofList
    ((Directive.linesOf symbol.documentation).filterMap Directive.ofLine?)
  refine ⟨hkinds, fun before => ?_, fun level hhigher before => ?_⟩
  · have hkept : (Logger.recording .debug).keep symbol.directives.messages =
        symbol.directives.messages := by
      rw [Logger.keep_recording, List.filter_eq_self]
      intro message hmessage
      rw [hlevel message hmessage]
      rfl
    rw [Logger.keep_append, hkept, Symbol.directives,
      Directive.messages_gather_of_isSome symbol.name hall, hkinds, List.append_assoc]
    rfl
  · have hlost : (Logger.recording level).keep symbol.directives.messages = [] := by
      rw [Logger.keep_recording, List.filter_eq_nil_iff]
      intro message hmessage
      rw [hlevel message hmessage, decide_eq_true_eq]
      cases level with
      | debug => exact absurd rfl hhigher
      | _ => decide
    rw [Logger.keep_append, hlost, List.append_nil]

/-- A kind comes again in other letters, and a third time in another piece of text. Both times it is
    reported, and it counts once among the kinds that were found. -/
theorem success_leaves_exact_trace_mixed :
    ∃ set, (Symbol.mk "f" ⟨0⟩ [.plain "!Extension a\n!Phantom\n!EXTENSION b", .lineBreak,
        .plain "!extension"] none).directives.value = .ok set ∧
      (Logger.recording .debug).keep (⟨.info, "before"⟩ :: (Symbol.mk "f" ⟨0⟩
        [.plain "!Extension a\n!Phantom\n!EXTENSION b", .lineBreak,
          .plain "!extension"] none).directives.messages) =
        [⟨.info, "before"⟩,
          ⟨.debug, "'f' declares !Extension more than once; keeping the last one"⟩,
          ⟨.debug, "'f' declares !Extension more than once; keeping the last one"⟩,
          ⟨.debug, "'f' carries 2 directive(s): Extension, Phantom"⟩] ∧
      (Logger.recording .info).keep (⟨.info, "before"⟩ :: (Symbol.mk "f" ⟨0⟩
        [.plain "!Extension a\n!Phantom\n!EXTENSION b", .lineBreak,
          .plain "!extension"] none).directives.messages) = [⟨.info, "before"⟩] := by
  have htrace := (success_leaves_exact_trace (Symbol.mk "f" ⟨0⟩
    [.plain "!Extension a\n!Phantom\n!EXTENSION b", .lineBreak, .plain "!extension"] none)).2 _ rfl
  refine ⟨_, rfl, (htrace.kept_debug [⟨.info, "before"⟩]).trans ?_,
    (htrace.kept_higher .info (by decide) [⟨.info, "before"⟩]).trans rfl⟩
  rw [htrace.kinds_eq]
  decide +kernel

end TreeQuery
