import TreeQuery.Proofs.Directive.Extraction
import TreeQuery.Proofs.Directive.Grammar
import TreeQuery.Proofs.Text.Lines

/-!
# The name in an error

A line that is marked as a directive calls a name: everything behind the marker up to
the first blank, which may be nothing. That name is looked up, and if it is no
directive the line is reported. The report has a name as well, and it is found in
another way, as the first word behind the marker.

The two ways agree on every line that has a character other than a blank directly
behind the marker, and on every line that has nothing but blanks there. They part on
a line whose marker is followed by blanks and then by a word. Nothing was looked up
for that word, and the report names it although it may be the name of a directive.

Lines of documentation have no line feed in them, so they all have the form of a
directive, and there is nothing that a line can be rejected for but its name.

## Main definitions

* `Calls`: The name that a line calls, and what stands behind it.

## Theorems

* `marked_of_mem_linesOf`: Lines of directives begin with the marker and have no line feed.
* `exists_calls_of_mem_linesOf`: Every line that is marked as a directive calls a name.
* `ofName?_eq_none_of_calls`: A line that declares none calls a name that is none.
* `reportedName_of_calls`: The name that a line is reported under.
* `exists_line_of_error`: An error comes from a line that declares no directive.
* `reported_name_of_error`: The name in an error, and when it is the one looked up.
* `reported_name_not_looked_up`: A known directive is reported.
-/

namespace TreeQuery.Directive

open Text

/-- The line calls a name: the characters behind the marker up to the first blank, or up to the end
    if there is no blank. -/
def Calls (line : String) (name behind : List Char) : Prop :=
  line.toList = marker :: (name ++ behind) ∧ (∀ c ∈ name, isBlank c = false) ∧ Separated behind

-- A line of a directive begins with the marker and has no line feed.
theorem marked_of_mem_linesOf {parts : List DocPart} {line : String} (h : line ∈ linesOf parts) :
    line.toList.head? = some marker ∧ '\n' ∉ line.toList := by
  rcases List.mem_flatMap.mp h with ⟨part, _, hpart⟩
  rcases List.mem_map.mp hpart with ⟨text, htext, rfl⟩
  rcases List.mem_filter.mp htext with ⟨hline, hhead⟩
  rw [String.toList_ofList]
  exact ⟨eq_of_beq hhead, lineFeed_not_mem_of_mem_lines _ text hline⟩

-- A line that is marked as a directive is the marker and text without a line feed.
theorem exists_calls_of_mem_linesOf {parts : List DocPart} {line : String}
    (h : line ∈ linesOf parts) :
    ∃ name behind, Calls line name behind ∧ '\n' ∉ behind := by
  rcases marked_of_mem_linesOf h with ⟨hhead, hfeed⟩
  rcases List.head?_eq_some_iff.mp hhead with ⟨rest, hline⟩
  rw [hline] at hfeed
  refine ⟨rest.takeWhile fun c => !isBlank c, rest.dropWhile fun c => !isBlank c,
    ⟨?_, fun c hc => ?_, separated_dropWhile rest⟩, fun hmem => ?_⟩
  · rw [hline, List.takeWhile_append_dropWhile]
  · simpa only [Bool.not_eq_true'] using List.mem_takeWhile_imp hc
  · exact hfeed (List.mem_cons_of_mem _ ((List.dropWhile_sublist _).mem hmem))

-- Text without a line feed that stands behind a name consists of words, whatever they are.
theorem arguments_of_separated {behind : List Char} (hfeed : '\n' ∉ behind)
    (h : Separated behind) : Arguments behind (words behind) := by
  rcases blanks_or_exists_word behind with hblanks | ⟨gap, word, rest, rfl, hgap, hword, hrest⟩
  · rw [words_of_blanks hblanks]
    exact Arguments.none hblanks
  · simp only [List.mem_append, not_or] at hfeed
    have hfurther := further_words rest.length rest [] le_rfl hfeed.2.2 hrest
      fun c hc => absurd hc List.not_mem_nil
    rw [List.append_nil] at hfurther
    rw [words_append_of_blanks _ hgap, words_append_of_word hword hrest]
    exact Arguments.some (gap_ne_nil hword h) hgap hword hfurther

-- A line without a line feed has the form of a directive, so if it declares none this is
-- because of the name that was looked up, and that is the name that the line calls.
theorem ofName?_eq_none_of_calls {line : String} {name behind : List Char}
    (hcalls : Calls line name behind) (hfeed : '\n' ∉ behind) (h : ofLine? line = none) :
    Kind.ofName? (String.ofList name) = none := by
  rcases hcalls with ⟨hline, hname, hbehind⟩
  rcases exists_cut?_of_arguments hname (arguments_of_separated hfeed hbehind) with
    ⟨text, hcut, _⟩
  have hcut : cut? line.toList = some (name, text) := by
    rw [hline]
    exact hcut
  simp only [ofLine?, hcut, Option.bind_eq_bind, Option.bind_some, Option.bind_eq_none_iff] at h
  rw [Option.eq_none_iff_forall_ne_some]
  intro kind hkind
  exact absurd (h kind hkind) (by simp only [Option.pure_def, reduceCtorEq, not_false_eq_true])

-- A line is reported under the name that it calls. If that is nothing, the first word behind
-- the blanks takes its place.
theorem reportedName_of_calls {line : String} {name behind : List Char}
    (h : Calls line name behind) :
    reportedName line = String.ofList (if name = [] then (words behind).headD [] else name) := by
  rcases h with ⟨hline, hname, hbehind⟩
  have hwords : reportedName line = String.ofList ((words (name ++ behind)).headD []) := by
    rw [reportedName, hline]
    simp only [if_true]
    cases words (name ++ behind) <;> rfl
  rw [hwords]
  by_cases hnil : name = []
  · rw [if_pos hnil, hnil, List.nil_append]
  · rw [if_neg hnil, words_append_of_word ⟨hnil, hname⟩ hbehind, List.headD_cons]

-- An error comes from a line that declares no directive, and repeats it.
theorem exists_line_of_error {symbol : Symbol} {name line owner : String}
    (h : symbol.directives.value = .error (.unrecognized name line owner)) :
    line ∈ linesOf symbol.documentation ∧ ofLine? line = none ∧ name = reportedName line ∧
      owner = symbol.name := by
  rcases exists_first_none _ ((exists_error_iff symbol).mp ⟨_, h⟩) with
    ⟨earlier, found, later, hlines, hearlier, hfound⟩
  rw [Symbol.directives, hlines,
    value_gather_of_none symbol.name earlier later found .empty hearlier hfound,
    Except.error.injEq, DirectiveError.unrecognized.injEq] at h
  rcases h with ⟨rfl, rfl, rfl⟩
  exact ⟨hlines ▸ List.mem_append_right _ List.mem_cons_self, hfound, rfl, rfl⟩

/-- What is known of the name in an error. The line calls a name, and that name was looked up and is
    no directive. The error has the same name, unless the line has blanks behind the marker and then
    a word: it then has that word. -/
theorem reported_name_of_error (symbol : Symbol) (name line owner : String)
    (h : symbol.directives.value = .error (.unrecognized name line owner)) :
    ∃ called behind, Calls line called behind ∧ Kind.ofName? (String.ofList called) = none ∧
      (name = String.ofList called ↔ called ≠ [] ∨ Blanks behind) ∧
      (called = [] → name = String.ofList ((words behind).headD [])) := by
  rcases exists_line_of_error h with ⟨hmem, hnone, hname, -⟩
  rcases exists_calls_of_mem_linesOf hmem with ⟨called, behind, hcalls, hfeed⟩
  refine ⟨called, behind, hcalls, ofName?_eq_none_of_calls hcalls hfeed hnone, ?_, ?_⟩
  · rw [hname, reportedName_of_calls hcalls, String.ofList_inj]
    by_cases hnil : called = []
    · rw [if_pos hnil, hnil, firstWord_eq_nil_iff]
      simp only [ne_eq, not_true_eq_false, false_or]
    · rw [if_neg hnil]
      simp only [ne_eq, hnil, not_false_eq_true, true_or]
  · intro hnil
    rw [hname, reportedName_of_calls hcalls, if_pos hnil]

/-- The marker stands before a blank. What was looked up is the empty name, and the error names a
    directive that is known. -/
theorem reported_name_not_looked_up :
    (Symbol.mk "f" ⟨0⟩ [.plain "! TupleReturn"] none).directives.value =
        .error (.unrecognized "TupleReturn" "! TupleReturn" "f") ∧
      Calls "! TupleReturn" [] " TupleReturn".toList ∧ Kind.ofName? "" = none ∧
      Kind.ofName? "TupleReturn" = some .tupleReturn := by
  refine ⟨rfl, ⟨by decide +kernel, ?_, ?_⟩, by decide +kernel, by decide +kernel⟩
  · exact fun c hc => absurd hc List.not_mem_nil
  · intro c rest hrest
    have hc : c = ' ' := (List.cons.inj hrest).1.symm
    rw [hc]
    decide

/-- An unknown name behind a directive, with words of its own, is reported as it was looked up. -/
theorem reported_name_of_error_unknown :
    ∃ called behind, Calls "!Abstract yes" called behind ∧
      Kind.ofName? (String.ofList called) = none ∧ "Abstract" = String.ofList called := by
  rcases reported_name_of_error (Symbol.mk "f" ⟨0⟩ [.plain "!Phantom\n!Abstract yes"] none)
    "Abstract" "!Abstract yes" "f" rfl with
    ⟨called, behind, hcalls, hnone, hsame, -⟩
  refine ⟨called, behind, hcalls, hnone, hsame.mpr (Or.inl ?_)⟩
  -- Directly behind the marker stands a letter, so the name is not empty.
  rintro rfl
  have hblank := hcalls.2.2 'A' "bstract yes".toList (List.cons.inj hcalls.1).2.symm
  exact absurd hblank (by decide)

end TreeQuery.Directive
