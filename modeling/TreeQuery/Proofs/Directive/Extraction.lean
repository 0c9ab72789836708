import TreeQuery.Log.Logger
import TreeQuery.Proofs.History
import TreeQuery.Query.Basic

/-!
# Reading a whole documentation

The directives of a symbol are gathered line by line into a set, and the first line
that declares none ends the reading. What comes out depends only on the lines as a
whole, and can be said without the order in which they are read.

If every line declares a directive, the set is the one whose history is the list
of these directives. Its kinds stand in the order in which they first occurred, and
of each kind it holds the directive of the last line.

If some line declares none, the first such line is the error, whatever stands
before it or behind it.

The value of a reading does not know who listens, so both are said for every
logger.

## Main definitions

* `Logger.hear`: A reading with a logger that listens.
* `Directive.LastOfKind`: A directive is declared by the last line of its kind.

## Theorems

* `value_gather_of_isSome`: Lines that all declare a directive are collected.
* `value_gather_of_none`: The first line that declares none ends the reading.
* `getLast?_eq_some_iff_lastOfKind`: The last directive of a kind, by its line.
* `exists_first_none`, `exists_error_iff`: A reading fails if any line declares none.
* `value_directives_eq_ok_iff`: A reading succeeds if every line declares one.
* `reading_of_documentation`: What the documentation of a symbol is read as.
-/

namespace TreeQuery

/-- A reading with a logger that listens: its value, and the messages that the logger keeps. -/
def Logger.hear (logger : Logger) (reading : Traced α) : α × List Message :=
  (reading.value, logger.keep reading.messages)

namespace Directive

/-- A directive is declared by its text, which is the last of the lines that declare a directive of
    its kind. -/
def LastOfKind (lines : List String) (directive : Directive) : Prop :=
  ∃ earlier later, lines = earlier ++ directive.text :: later ∧
    ofLine? directive.text = some directive ∧
    ∀ line ∈ later, ∀ other, ofLine? line = some other → other.kind ≠ directive.kind

-- A directive keeps the line that it was declared by.
theorem text_of_ofLine? (line : String) (directive : Directive)
    (h : ofLine? line = some directive) : directive.text = line := by
  simp only [ofLine?, Option.bind_eq_bind, Option.bind_eq_some_iff, Option.pure_def,
    Option.some.injEq] at h
  rcases h with ⟨_, _, _, _, rfl⟩
  rfl

-- Lines that all declare a directive are collected, each directive into the set that those
-- before it have left.
theorem value_gather_of_isSome (owner : String) (lines : List String) (set : DirectiveSet)
    (h : ∀ line ∈ lines, (ofLine? line).isSome) :
    (gather owner set lines).value = .ok
      ((lines.filterMap ofLine?).foldl (fun set directive => (set.insert directive).2) set) := by
  induction lines generalizing set with
  | nil => rfl
  | cons line rest ih =>
      rcases List.forall_mem_cons.mp h with ⟨hline, hrest⟩
      rcases Option.isSome_iff_exists.mp hline with ⟨directive, hdirective⟩
      simp only [gather, hdirective, List.filterMap_cons, List.foldl_cons]
      exact ih (set.insert directive).2 hrest

-- The first line that declares no directive ends the reading and is its error. The
-- induction is on the lines before it, whose directives are collected in vain.
theorem value_gather_of_none (owner : String) (earlier later : List String) (line : String)
    (set : DirectiveSet) (hearlier : ∀ other ∈ earlier, (ofLine? other).isSome)
    (hline : ofLine? line = none) :
    (gather owner set (earlier ++ line :: later)).value =
      .error (.unrecognized (reportedName line) line owner) := by
  induction earlier generalizing set with
  | nil => simp only [List.nil_append, gather, hline]
  | cons first rest ih =>
      rcases List.forall_mem_cons.mp hearlier with ⟨hfirst, hrest⟩
      rcases Option.isSome_iff_exists.mp hfirst with ⟨directive, hdirective⟩
      simp only [List.cons_append, gather, hdirective]
      exact ih (set.insert directive).2 hrest

-- The last directive of a kind among those that lines declare, by the line that declares
-- it. Looking for the last one means looking for the first one from the end, so the two
-- lists in `LastOfKind` come out reversed.
theorem getLast?_eq_some_iff_lastOfKind (lines : List String) (kind : Kind)
    (directive : Directive) :
    ((lines.filterMap ofLine?).filter fun other => decide (other.kind = kind)).getLast? =
        some directive ↔
      directive.kind = kind ∧ LastOfKind lines directive := by
  rw [List.filter_filterMap, List.getLast?_filterMap, List.findSome?_eq_some_iff]
  simp only [Option.filter_eq_some_iff, Option.filter_eq_none_iff, decide_eq_true_eq]
  constructor
  · intro hfind
    rcases hfind with ⟨behind, line, before, hlines, ⟨hline, hkind⟩, hbehind⟩
    have htext := text_of_ofLine? line directive hline
    refine ⟨hkind, before.reverse, behind.reverse, ?_, by rw [htext]; exact hline, ?_⟩
    · rw [← List.reverse_reverse lines, hlines, htext]
      simp only [List.reverse_append, List.reverse_cons, List.append_assoc, List.cons_append,
        List.nil_append]
    · intro other hother declared hdeclared
      rw [hkind]
      exact hbehind other (List.mem_reverse.mp hother) declared hdeclared
  · intro hlast
    rcases hlast with ⟨rfl, earlier, later, hlines, hline, hlater⟩
    refine ⟨later.reverse, directive.text, earlier.reverse, ?_, ⟨hline, rfl⟩, ?_⟩
    · rw [hlines]
      simp only [List.reverse_append, List.reverse_cons, List.append_assoc, List.cons_append,
        List.nil_append]
    · intro other hother declared hdeclared
      exact hlater other (List.mem_reverse.mp hother) declared hdeclared

-- Lines of which some declares no directive have a first such line.
theorem exists_first_none (lines : List String) (h : ∃ line ∈ lines, ofLine? line = none) :
    ∃ earlier line later, lines = earlier ++ line :: later ∧
      (∀ other ∈ earlier, (ofLine? other).isSome) ∧ ofLine? line = none := by
  rcases h with ⟨bad, hbad, hnone⟩
  have hfind : (lines.find? fun line => (ofLine? line).isNone).isSome :=
    List.find?_isSome.mpr ⟨bad, hbad, by rw [hnone]; rfl⟩
  rcases Option.isSome_iff_exists.mp hfind with ⟨line, hline⟩
  rcases List.find?_eq_some_iff_append.mp hline with ⟨hfails, earlier, later, hlines, hearlier⟩
  have hnone := Option.isNone_iff_eq_none.mp hfails
  refine ⟨earlier, line, later, hlines, fun other hother => ?_, hnone⟩
  simpa only [Option.not_isNone] using hearlier other hother

-- The documentation of a symbol is read with an error exactly if some line declares no
-- directive.
theorem exists_error_iff (symbol : Symbol) :
    (∃ cause, symbol.directives.value = .error cause) ↔
      ∃ line ∈ linesOf symbol.documentation, ofLine? line = none := by
  constructor
  · intro herror
    rcases herror with ⟨cause, hcause⟩
    by_contra hall
    have hsome : ∀ line ∈ linesOf symbol.documentation, (ofLine? line).isSome := by
      intro line hline
      rw [Option.isSome_iff_ne_none]
      exact fun hnone => hall ⟨line, hline, hnone⟩
    rw [Symbol.directives, value_gather_of_isSome _ _ _ hsome] at hcause
    exact absurd hcause (by simp only [reduceCtorEq, not_false_eq_true])
  · intro hbad
    rcases exists_first_none _ hbad with ⟨earlier, line, later, hlines, hearlier, hline⟩
    refine ⟨.unrecognized (reportedName line) line symbol.name, ?_⟩
    rw [Symbol.directives, hlines]
    exact value_gather_of_none symbol.name earlier later line .empty hearlier hline

-- It is read with success exactly if every line declares one, and the set is the one with these
-- directives for its history.
theorem value_directives_eq_ok_iff (symbol : Symbol) (set : DirectiveSet) :
    symbol.directives.value = .ok set ↔
      (∀ line ∈ linesOf symbol.documentation, (ofLine? line).isSome) ∧
        .ofList ((linesOf symbol.documentation).filterMap ofLine?) = set := by
  by_cases hall : ∀ line ∈ linesOf symbol.documentation, (ofLine? line).isSome
  · rw [Symbol.directives, value_gather_of_isSome _ _ _ hall, Except.ok.injEq]
    exact (and_iff_right hall).symm
  · refine iff_of_false (fun hok => ?_) fun h => hall h.1
    simp only [not_forall, Option.not_isSome_iff_eq_none, exists_prop] at hall
    rcases (exists_error_iff symbol).mpr hall with ⟨cause, hcause⟩
    rw [hcause] at hok
    exact absurd hok (by simp only [reduceCtorEq, not_false_eq_true])

end Directive

/-- What the documentation of a symbol is read as, whoever listens. If all its lines declare
    directives, the set has their kinds in the order in which they first occur, and of each kind the
    directive of the last line. Otherwise the first line that declares none is the error. A type is
    read as its symbol. -/
theorem reading_of_documentation (symbol : Symbol) (logger : Logger) :
    let lines := Directive.linesOf symbol.documentation
    ((∀ line ∈ lines, (Directive.ofLine? line).isSome) →
      ∃ set, (logger.hear symbol.directives).1 = .ok set ∧
        set.kinds = ((lines.filterMap Directive.ofLine?).map Directive.kind).eraseDups ∧
        ∀ kind directive, set.get? kind = some directive ↔
          directive.kind = kind ∧ Directive.LastOfKind lines directive) ∧
    ((∃ line ∈ lines, Directive.ofLine? line = none) →
      ∃ earlier line later, lines = earlier ++ line :: later ∧
        (∀ other ∈ earlier, (Directive.ofLine? other).isSome) ∧ Directive.ofLine? line = none ∧
        (logger.hear symbol.directives).1 =
          .error (.unrecognized (Directive.reportedName line) line symbol.name)) ∧
    ∀ type : Ty, type.symbol = some symbol →
      (logger.hear type.directives).1 = (logger.hear symbol.directives).1 := by
  intro lines
  have hvalue : (logger.hear symbol.directives).1 =
      (Directive.gather symbol.name .empty lines).value := rfl
  rw [hvalue]
  refine ⟨?_, ?_, ?_⟩
  · intro hall
    refine ⟨.ofList (lines.filterMap Directive.ofLine?),
      Directive.value_gather_of_isSome symbol.name lines .empty hall,
      DirectiveSet.kinds_ofList _, fun kind directive => ?_⟩
    rw [DirectiveSet.get?_ofList]
    exact Directive.getLast?_eq_some_iff_lastOfKind lines kind directive
  · intro hbad
    rcases Directive.exists_first_none lines hbad with
      ⟨earlier, line, later, hlines, hearlier, hline⟩
    refine ⟨earlier, line, later, hlines, hearlier, hline, ?_⟩
    rw [hlines]
    exact Directive.value_gather_of_none symbol.name earlier later line .empty hearlier hline
  · intro type htype
    rw [← hvalue, Ty.directives, htype]

/-- A directive that comes again in another piece of text keeps its place and takes the later
    words. -/
theorem reading_of_documentation_repeated :
    ∃ set, (Logger.null.hear (Symbol.mk "f" ⟨0⟩ [.plain " !Extension a\n!Phantom\nplain",
        .lineBreak, .plain "!EXTENSION b  c"] none).directives).1 = .ok set ∧
      set.kinds = [.extension, .phantom] ∧
      set.get? .extension = some ⟨.extension, "!EXTENSION b  c", ["b", "c"]⟩ := by
  rcases (reading_of_documentation (Symbol.mk "f" ⟨0⟩ [.plain " !Extension a\n!Phantom\nplain",
    .lineBreak, .plain "!EXTENSION b  c"] none) .null).1 (by decide +kernel) with
    ⟨set, hset, hkinds, hget⟩
  refine ⟨set, hset, hkinds.trans (by decide +kernel), (hget ..).mpr ⟨rfl, ?_⟩⟩
  exact ⟨["!Extension a", "!Phantom"], [], by decide +kernel, by decide +kernel,
    fun line hline => absurd hline List.not_mem_nil⟩

end TreeQuery
