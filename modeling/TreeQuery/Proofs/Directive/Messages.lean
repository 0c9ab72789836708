import TreeQuery.Proofs.Directive.Extraction
import TreeQuery.Proofs.Directive.Insertion

/-!
# The messages of a reading

A kind of directive that comes again is reported at the line where it does. The lines are
read in order, so a report is sent before it is known whether a later line declares
nothing and ends the reading with an error.

What has been sent when a line is reached depends only on the kinds that the lines before
it declare. Each of them is reported whenever it already stands among those before it. A
reading that fails has sent the reports up to the failing line and nothing else, and so
an error is the only trace of the reading exactly if no kind comes twice before it, or if
nobody hears what is sent.

## Main definitions

* `Directive.declaredKinds`: The kinds that lines declare.
* `Directive.comingAgain`: The kinds of a list that come again.
* `Directive.repeatReport`: The message about a kind that comes again.

## Theorems

* `Logger.emit_eq_empty_iff`, `Logger.emitAll_eq_empty_iff`: Messages that leave no mark.
* `comingAgain_eq_nil_iff`: No kind comes again if they are all different.
* `kind_fst_insert`: What an insertion hands back, by its kind.
* `messages_gather_cons`, `messages_gather_append`: What is sent at a line, and up to it.
* `messages_gather_of_none`, `emitAll_reports_eq_empty_iff`: What is sent before a line
  that declares nothing, and when nobody notices.
* `error_is_reported_after_repeats`: What a reading that fails has sent.
* `error_is_not_reported_alone`: A reading that fails and has sent a message.
-/

namespace TreeQuery

-- A mark is empty if nothing is shown and nothing is remembered.
theorem Mark.eq_empty_iff (mark : Mark) :
    mark = {} ↔ mark.printed = "" ∧ mark.remembered = [] := by
  cases mark
  rw [Mark.mk.injEq]

namespace Logger

theorem emit_eq_empty_iff (logger : Logger) (message : Message) :
    logger.emit message = {} ↔
      ¬ logger.isEnabled message.level ∨ logger.destination = .nowhere := by
  rw [emit]
  by_cases henabled : logger.isEnabled message.level
  · rw [if_pos henabled]
    simp only [henabled, not_true_eq_false, false_or]
    cases logger.destination with
    | nowhere => exact iff_of_true rfl rfl
    | console =>
        simp only [Mark.mk.injEq, String.append_eq_empty_iff, reduceCtorEq]
        exact iff_of_false (fun hmark => absurd hmark.1.2 (by decide)) id
    | memory => simp only [Mark.mk.injEq, List.cons_ne_nil, and_false, reduceCtorEq]
  · rw [if_neg henabled]
    exact iff_of_true rfl (Or.inl henabled)

theorem emitAll_eq_empty_iff (logger : Logger) (messages : List Message) :
    logger.emitAll messages = {} ↔ ∀ message ∈ messages, logger.emit message = {} := by
  induction messages with
  | nil => exact iff_of_true rfl (fun message hmessage => absurd hmessage List.not_mem_nil)
  | cons message rest ih =>
      rw [List.forall_mem_cons, ← ih]
      simp only [emitAll, List.foldr_cons, Mark.eq_empty_iff, String.append_eq_empty_iff,
        List.append_eq_nil_iff]
      exact and_and_and_comm

end Logger

namespace Directive

/-- The kinds that lines declare, in the order of the lines. -/
def declaredKinds (lines : List String) : List Kind :=
  (lines.filterMap ofLine?).map Directive.kind

/-- The kinds of a list that come again, each whenever it does. Some kinds stand before the list. -/
def comingAgain (before : List Kind) : List Kind → List Kind
  | [] => []
  | kind :: rest =>
    (if kind ∈ before then [kind] else []) ++ comingAgain (before ++ [kind]) rest

/-- The message about a kind that comes again. -/
def repeatReport (owner : String) (kind : Kind) : Message :=
  ⟨.debug, repeatedMessage owner kind⟩

-- As long as no kind comes again, the kinds before the rest of the list are all different.
theorem comingAgain_eq_nil_iff {before kinds : List Kind} (h : before.Nodup) :
    comingAgain before kinds = [] ↔ (before ++ kinds).Nodup := by
  induction kinds generalizing before with
  | nil => exact iff_of_true rfl (by rwa [List.append_nil])
  | cons kind rest ih =>
      rw [comingAgain]
      by_cases hkind : kind ∈ before
      · rw [if_pos hkind]
        refine iff_of_false (List.cons_ne_nil _ _) fun hnodup => ?_
        exact List.disjoint_of_nodup_append hnodup hkind List.mem_cons_self
      · rw [if_neg hkind, List.nil_append, List.append_cons before kind rest]
        exact ih (List.concat_eq_append ▸ (List.nodup_concat ..).mpr ⟨hkind, h⟩)

-- What an insertion hands back is of the kind that is inserted.
theorem kind_fst_insert (history : List Directive) (directive : Directive) :
    ((DirectiveSet.ofList history).insert directive).1.map Directive.kind =
      if directive.kind ∈ history.map Directive.kind then some directive.kind else none := by
  have hchanges := DirectiveSet.changes_insert (DirectiveSet.nodup_kinds_ofList history) directive
  rw [hchanges.fst_eq, DirectiveSet.get?_ofList]
  cases hlast : (history.filter fun other => decide (other.kind = directive.kind)).getLast? with
  | none =>
      rw [List.getLast?_eq_none_iff, List.filter_eq_nil_iff] at hlast
      rw [if_neg, Option.map_none]
      intro hkind
      rcases List.mem_map.mp hkind with ⟨other, hother, hsame⟩
      exact hlast other hother (decide_eq_true hsame)
  | some previous =>
      rcases List.mem_filter.mp (List.mem_of_getLast? hlast) with ⟨hprevious, hsame⟩
      have hkind := of_decide_eq_true hsame
      rw [if_pos (hkind ▸ List.mem_map_of_mem hprevious), Option.map_some, hkind]

-- What is sent at a line that declares a directive.
theorem messages_gather_cons (owner : String) (history : List Directive) {line : String}
    {directive : Directive} (rest : List String) (h : ofLine? line = some directive) :
    (gather owner (.ofList history) (line :: rest)).messages =
      (if directive.kind ∈ history.map Directive.kind then [directive.kind] else []).map
          (repeatReport owner) ++
        (gather owner (.ofList (history ++ [directive])) rest).messages := by
  have hkind := kind_fst_insert history directive
  simp only [gather, h, DirectiveSet.ofList_concat]
  split at hkind
  · rename_i hmem
    rcases Option.map_eq_some_iff.mp hkind with ⟨previous, hprevious, hsame⟩
    rw [hprevious, if_pos hmem, ← hsame]
    rfl
  · rename_i hmem
    rw [Option.map_eq_none_iff.mp hkind, if_neg hmem]
    rfl

-- What is sent up to a line, if those before it all declare directives. The induction is on these
-- lines, and the history takes the directive of each along.
theorem messages_gather_append (owner : String) (history : List Directive)
    (earlier rest : List String) (h : ∀ line ∈ earlier, (ofLine? line).isSome) :
    (gather owner (.ofList history) (earlier ++ rest)).messages =
      (comingAgain (history.map Directive.kind) (declaredKinds earlier)).map (repeatReport owner) ++
        (gather owner (.ofList (history ++ earlier.filterMap ofLine?)) rest).messages := by
  induction earlier generalizing history with
  | nil => rw [List.nil_append, List.filterMap_nil, List.append_nil]; rfl
  | cons line others ih =>
      rcases List.forall_mem_cons.mp h with ⟨hline, hothers⟩
      rcases Option.isSome_iff_exists.mp hline with ⟨directive, hdirective⟩
      have hkinds : declaredKinds (line :: others) = directive.kind :: declaredKinds others := by
        rw [declaredKinds, List.filterMap_cons_some hdirective, List.map_cons, declaredKinds]
      have hhistory := List.append_cons history directive (others.filterMap ofLine?)
      rw [List.cons_append, messages_gather_cons owner history _ hdirective, ih _ hothers, hkinds,
        comingAgain, List.filterMap_cons_some hdirective, hhistory]
      rw [List.map_append, List.map_append, List.map_singleton]
      exact (List.append_assoc ..).symm

-- A reading that fails has sent the reports before its first line that declares none.
theorem messages_gather_of_none (owner : String) (earlier later : List String) {line : String}
    (hearlier : ∀ other ∈ earlier, (ofLine? other).isSome) (hline : ofLine? line = none) :
    (gather owner .empty (earlier ++ line :: later)).messages =
      (comingAgain [] (declaredKinds earlier)).map (repeatReport owner) := by
  have hmessages := messages_gather_append owner [] earlier (line :: later) hearlier
  simp only [gather, hline, List.append_nil, List.map_nil] at hmessages
  exact hmessages

-- Reports leave no mark if there are none, or if the logger does not hear or keep them.
theorem emitAll_reports_eq_empty_iff (logger : Logger) (owner : String) (kinds : List Kind) :
    logger.emitAll (kinds.map (repeatReport owner)) = {} ↔
      kinds = [] ∨ ¬ logger.isEnabled .debug ∨ logger.destination = .nowhere := by
  rw [Logger.emitAll_eq_empty_iff, List.forall_mem_map]
  simp only [Logger.emit_eq_empty_iff, repeatReport]
  cases kinds with
  | nil => exact iff_of_true (fun _ hkind => absurd hkind List.not_mem_nil) (Or.inl rfl)
  | cons kind rest =>
      rw [or_iff_right (List.cons_ne_nil kind rest)]
      exact ⟨fun h => h kind List.mem_cons_self, fun h _ _ => h⟩

end Directive

/-- A reading that fails has an error for its first line that declares no directive. By then it has
    sent a report for every line whose kind already stands among the lines before it, and nothing
    else. So the error is the only trace of the reading exactly if the kinds before the failing line
    are all different, or if the logger does not hear or keep reports. -/
theorem error_is_reported_after_repeats (symbol : Symbol) (logger : Logger)
    (cause : DirectiveError) (h : symbol.directives.value = .error cause) :
    ∃ earlier line later, Directive.linesOf symbol.documentation = earlier ++ line :: later ∧
      (∀ other ∈ earlier, (Directive.ofLine? other).isSome) ∧ Directive.ofLine? line = none ∧
      symbol.directives.messages =
        (Directive.comingAgain [] (Directive.declaredKinds earlier)).map
          (Directive.repeatReport symbol.name) ∧
      (logger.emitAll symbol.directives.messages = {} ↔
        (Directive.declaredKinds earlier).Nodup ∨ ¬ logger.isEnabled .debug ∨
          logger.destination = .nowhere) := by
  rcases Directive.exists_first_none _ ((Directive.exists_error_iff symbol).mp ⟨cause, h⟩) with
    ⟨earlier, line, later, hlines, hearlier, hline⟩
  have hmessages : symbol.directives.messages =
      (Directive.comingAgain [] (Directive.declaredKinds earlier)).map
        (Directive.repeatReport symbol.name) := by
    rw [Symbol.directives, hlines]
    exact Directive.messages_gather_of_none symbol.name earlier later hearlier hline
  refine ⟨earlier, line, later, hlines, hearlier, hline, hmessages, ?_⟩
  rw [hmessages, Directive.emitAll_reports_eq_empty_iff,
    Directive.comingAgain_eq_nil_iff List.nodup_nil, List.nil_append]

/-- Two kinds stand before the failing line, each of them once, and the console shows nothing. -/
theorem error_is_reported_after_repeats_different :
    (Symbol.mk "f" ⟨0⟩ [.plain "!Phantom\n!TupleReturn\n!Nope"] none).directives.value =
        .error (.unrecognized "Nope" "!Nope" "f") ∧
      (Logger.console .debug).emitAll
        (Symbol.mk "f" ⟨0⟩ [.plain "!Phantom\n!TupleReturn\n!Nope"] none).directives.messages =
          {} := by
  refine ⟨rfl, ?_⟩
  rcases error_is_reported_after_repeats
    (Symbol.mk "f" ⟨0⟩ [.plain "!Phantom\n!TupleReturn\n!Nope"] none) (.console .debug) _ rfl with
    ⟨earlier, line, later, hlines, -, -, -, hempty⟩
  have hkinds : (Directive.declaredKinds (Directive.linesOf
      [.plain "!Phantom\n!TupleReturn\n!Nope"])).Nodup := by decide +kernel
  rw [hlines, Directive.declaredKinds, List.filterMap_append, List.map_append] at hkinds
  exact hempty.mpr (Or.inl hkinds.of_append_left)

/-- A kind comes again before the failing line. The reading fails, and a logger that keeps
    everything has heard of the kind. -/
theorem error_is_not_reported_alone :
    (Symbol.mk "f" ⟨0⟩ [.plain "!Phantom\n!phantom\n!Nope"] none).directives.value =
        .error (.unrecognized "Nope" "!Nope" "f") ∧
      (Logger.recording .debug).keep
        (Symbol.mk "f" ⟨0⟩ [.plain "!Phantom\n!phantom\n!Nope"] none).directives.messages =
          [⟨.debug, "'f' declares !Phantom more than once; keeping the last one"⟩] :=
  ⟨rfl, by decide +kernel⟩

end TreeQuery
