import Mathlib.Data.List.ModifyLast
import TreeQuery.Proofs.Text.Words

/-!
# Lines that are not blank

A text that is trimmed and then taken apart into lines is looked at from its ends first.
The same lines are found one at a time. Take the text apart at its line feeds, leave out
the pieces that are blank throughout, and trim what is left at two places only: the start
of the first piece and the end of the last.

Trimming a text may remove whole lines, and these are blank. It may shorten the first
line that has anything else in it, and the last such line. All others stay as they are,
and blank lines between them stay blank. The carriage return before a line feed belongs
to the line end in either account, and since it is a blank nothing depends on whether it
is taken away before the line is trimmed or after.

Texts are followed line by line here: a text is a line without a line feed, or such a
line, a line feed and the rest.

## Main definitions

* `Padded`: A text is a line and blanks behind it.
* `dropReturn`: A line without the carriage return at its end.
* `pieces`: What stands between the line feeds of a text.
* `filled`: The pieces that are not blank throughout.
* `trimOuter`: Lines with the start of the first and the end of the last trimmed.

## Theorems

* `line_induction`: What holds of texts line by line holds of every text.
* `lines_append`, `pieces_append`, `filled_append`: The first line of a text.
* `lineFeed_not_mem_of_mem_lines`: No line of a text has a line feed.
* `filter_lines`: The lines of a text that are not blank.
* `filled_trimStart`, `filled_trimEnd`, `filled_trim`: What trimming does to them.
* `head?_trimOuter`: The first characters of lines that were trimmed.
* `pieces_intercalate`: The pieces of lines that were put together.
-/

namespace TreeQuery.Text

instance : DecidablePred Blanks := fun text =>
  List.decidableBAll (fun c => isBlank c = true) text

/-- The text is the line and any blanks behind it. -/
def Padded (line text : List Char) : Prop :=
  ∃ trailing, Blanks trailing ∧ text = line ++ trailing

/-- A line without one carriage return at its end, if there is one. -/
def dropReturn (line : List Char) : List Char :=
  if line.getLast? = some '\r' then line.dropLast else line

/-- What stands between the line feeds of a text. A line feed takes one carriage return directly
    before it along. -/
def pieces (text : List Char) : List (List Char) :=
  (text.splitOn '\n').dropLast.map dropReturn ++ (text.splitOn '\n').getLast?.toList

/-- The pieces of a text that are not blank throughout. -/
def filled (text : List Char) : List (List Char) :=
  (pieces text).filter fun line => ¬ Blanks line

/-- The lines, the first of them trimmed at its start and the last one at its end. -/
def trimOuter (lines : List (List Char)) : List (List Char) :=
  (lines.modifyHead trimStart).modifyLast trimEnd

/-- What holds of every line without a line feed, and is kept when such a line is put in front of a
    text, holds of every text. -/
@[elab_as_elim]
theorem line_induction {P : List Char → Prop} (hlast : ∀ line, '\n' ∉ line → P line)
    (hline : ∀ line rest, '\n' ∉ line → P rest → P (line ++ '\n' :: rest)) (text : List Char) :
    P text := by
  induction hlength : text.length using Nat.strong_induction_on generalizing text with
  | _ n ih =>
      by_cases hfeed : '\n' ∈ text
      · rcases List.eq_append_cons_of_mem hfeed with ⟨line, rest, rfl, hfree⟩
        refine hline line rest hfree (ih rest.length ?_ rest rfl)
        rw [← hlength, List.length_append, List.length_cons]
        omega
      · exact hlast text hfeed

theorem blanks_cons_lineFeed_iff (rest : List Char) : Blanks ('\n' :: rest) ↔ Blanks rest := by
  rw [Blanks, List.forall_mem_cons]
  exact and_iff_right isBlank_lineFeed

theorem Padded.blanks_iff {line text : List Char} (h : Padded line text) :
    Blanks line ↔ Blanks text := by
  rcases h with ⟨trailing, htrailing, rfl⟩
  rw [blanks_append_iff]
  exact (and_iff_left htrailing).symm

theorem Padded.trimEnd_eq {line text : List Char} (h : Padded line text) :
    trimEnd line = trimEnd text := by
  rcases h with ⟨trailing, htrailing, rfl⟩
  exact (trimEnd_append_of_blanks line htrailing).symm

theorem Padded.not_mem {line text : List Char} {c : Char} (h : Padded line text)
    (hc : c ∉ text) : c ∉ line := by
  rcases h with ⟨trailing, _, rfl⟩
  exact fun hmem => hc (List.mem_append_left trailing hmem)

theorem Padded.head?_eq {line text : List Char} (h : Padded line text) (hblanks : ¬ Blanks text) :
    line.head? = text.head? := by
  have hne : line ≠ [] := by
    rintro rfl
    exact hblanks (h.blanks_iff.mp (List.forall_mem_nil _))
  rcases h with ⟨trailing, _, rfl⟩
  exact (List.head?_append_of_ne_nil line hne).symm

theorem padded_trimEnd (text : List Char) : Padded (trimEnd text) text :=
  exists_trimEnd_append text

-- A carriage return is a blank.
theorem padded_dropReturn (line : List Char) : Padded (dropReturn line) line := by
  by_cases hlast : line.getLast? = some '\r'
  · rcases List.getLast?_eq_some_iff.mp hlast with ⟨front, rfl⟩
    refine ⟨['\r'], List.forall_mem_singleton.mpr (by decide), ?_⟩
    rw [dropReturn, if_pos hlast, List.dropLast_concat]
  · refine ⟨[], List.forall_mem_nil _, ?_⟩
    rw [dropReturn, if_neg hlast, List.append_nil]

theorem dropReturn_append (front : List Char) {line : List Char} (hne : line ≠ []) :
    dropReturn (front ++ line) = front ++ dropReturn line := by
  rw [dropReturn, dropReturn, List.getLast?_append_of_ne_nil front hne,
    List.dropLast_append_of_ne_nil hne]
  by_cases hlast : line.getLast? = some '\r'
  · rw [if_pos hlast, if_pos hlast]
  · rw [if_neg hlast, if_neg hlast]

-- A carriage return at the end of a line with a word in it is not what is trimmed at the start.
theorem dropReturn_trimStart {line : List Char} (h : ¬ Blanks line) :
    dropReturn (trimStart line) = trimStart (dropReturn line) := by
  rcases blanks_or_exists_word line with hblanks | ⟨gap, word, rest, rfl, hgap, hword, _⟩
  · exact absurd hblanks h
  · have hkept : ∃ others, dropReturn (word ++ rest) = word ++ others := by
      cases rest with
      | nil =>
          refine ⟨[], ?_⟩
          rw [List.append_nil, dropReturn, if_neg]
          intro hlast
          have hblank := hword.2 '\r' (List.mem_of_getLast? hlast)
          exact absurd hblank (by decide)
      | cons c others => exact ⟨_, dropReturn_append word (List.cons_ne_nil c others)⟩
    rcases hkept with ⟨others, hothers⟩
    have hne : word ++ rest ≠ [] := List.append_ne_nil_of_left_ne_nil hword.1 rest
    rw [trimStart_append_of_word _ hgap hword, dropReturn_append gap hne, hothers,
      trimStart_append_of_word _ hgap hword]

-- A character that ends no line belongs to the first line of what it stands in front of.
theorem lines_cons {c : Char} {rest : List Char} (hfeed : c ≠ '\n')
    (hreturn : c = '\r' → rest.head? ≠ some '\n') :
    lines (c :: rest) = (c :: (lines rest).headD []) :: (lines rest).tail := by
  have hreturn : ∀ more, c = '\r' → rest = '\n' :: more → False := by
    rintro more hc rfl
    exact hreturn hc rfl
  cases hrest : lines rest with
  | nil =>
      rw [lines, hrest]
      · rfl
      · exact hfeed
      · exact hreturn
  | cons line more =>
      rw [lines, hrest]
      · rfl
      · exact hfeed
      · exact hreturn

theorem lines_of_not_mem {line : List Char} (h : '\n' ∉ line) :
    lines line = if line = [] then [] else [line] := by
  induction line with
  | nil => rfl
  | cons c rest ih =>
      rcases List.ne_and_not_mem_of_not_mem_cons h with ⟨hc, hrest⟩
      have hreturn : c = '\r' → rest.head? ≠ some '\n' := fun _ hhead =>
        hrest (List.mem_of_mem_head? hhead)
      rw [lines_cons hc.symm hreturn, ih hrest, if_neg (List.cons_ne_nil c rest)]
      cases rest <;> rfl

-- The first line of a text that has a line feed. By induction on that line, which ends before a
-- carriage return only if nothing but the line feed follows it.
theorem lines_append {line : List Char} (rest : List Char) (h : '\n' ∉ line) :
    lines (line ++ '\n' :: rest) = dropReturn line :: lines rest := by
  induction line with
  | nil => rfl
  | cons c others ih =>
      rcases List.ne_and_not_mem_of_not_mem_cons h with ⟨hc, hothers⟩
      cases others with
      | nil =>
          by_cases hreturn : c = '\r'
          · rw [hreturn]
            rfl
          · have hkept : dropReturn [c] = [c] :=
              if_neg fun hlast => hreturn (Option.some.inj hlast)
            rw [List.singleton_append, lines_cons hc.symm fun heq => absurd heq hreturn, hkept]
            rfl
      | cons d more =>
          have hfeed : d ≠ '\n' := fun heq => hothers (heq ▸ List.mem_cons_self)
          have hreturn : c = '\r' → (d :: more ++ '\n' :: rest).head? ≠ some '\n' := fun _ hhead =>
            hfeed (Option.some.inj hhead)
          rw [List.cons_append, lines_cons hc.symm hreturn, ih hothers]
          exact congrArg (· :: lines rest)
            (dropReturn_append [c] (List.cons_ne_nil d more)).symm

/-- No line of a text has a line feed. -/
theorem lineFeed_not_mem_of_mem_lines (text : List Char) : ∀ line ∈ lines text, '\n' ∉ line := by
  induction text using line_induction with
  | hlast line hfeed =>
      rw [lines_of_not_mem hfeed]
      by_cases hnil : line = []
      · rw [if_pos hnil]
        exact List.forall_mem_nil _
      · rw [if_neg hnil]
        exact List.forall_mem_singleton.mpr hfeed
  | hline line rest hfeed ih =>
      rw [lines_append rest hfeed]
      exact List.forall_mem_cons.mpr ⟨(padded_dropReturn line).not_mem hfeed, ih⟩

theorem pieces_of_not_mem {line : List Char} (h : '\n' ∉ line) : pieces line = [line] := by
  rw [pieces, List.splitOn_eq_singleton h]
  rfl

theorem pieces_append {line : List Char} (rest : List Char) (h : '\n' ∉ line) :
    pieces (line ++ '\n' :: rest) = dropReturn line :: pieces rest := by
  have hne := List.splitOn_ne_nil '\n' rest
  rw [pieces, List.splitOn_append_cons_self_of_not_mem h, List.dropLast_cons_of_ne_nil hne,
    List.getLast?_cons_of_ne_nil hne]
  rfl

theorem filter_singleton_blanks (line : List Char) :
    ([line].filter fun other => ¬ Blanks other) = if Blanks line then [] else [line] := by
  by_cases hblanks : Blanks line
  · rw [if_pos hblanks, List.filter_cons_of_neg, List.filter_nil]
    simp only [hblanks, not_true_eq_false, decide_false, Bool.false_eq_true, not_false_eq_true]
  · rw [if_neg hblanks, List.filter_cons_of_pos, List.filter_nil]
    simp only [hblanks, not_false_eq_true, decide_true]

theorem filled_of_not_mem {line : List Char} (h : '\n' ∉ line) :
    filled line = if Blanks line then [] else [line] := by
  rw [filled, pieces_of_not_mem h, filter_singleton_blanks]

theorem filled_append {line : List Char} (rest : List Char) (h : '\n' ∉ line) :
    filled (line ++ '\n' :: rest) =
      (if Blanks line then [] else [dropReturn line]) ++ filled rest := by
  rw [filled, pieces_append rest h, ← List.singleton_append, List.filter_append,
    filter_singleton_blanks]
  simp only [(padded_dropReturn line).blanks_iff]
  rfl

-- Nothing is left exactly of blank texts.
theorem filled_eq_nil_iff (text : List Char) : filled text = [] ↔ Blanks text := by
  induction text using line_induction with
  | hlast line hfeed =>
      rw [filled_of_not_mem hfeed]
      simp only [ite_eq_left_iff, List.cons_ne_nil, imp_false, not_not]
  | hline line rest hfeed ih =>
      rw [filled_append rest hfeed, List.append_eq_nil_iff, ih, blanks_append_iff,
        blanks_cons_lineFeed_iff]
      simp only [ite_eq_left_iff, List.cons_ne_nil, imp_false, not_not]

-- The lines of a text and the pieces between its line feeds differ in blank ones only: behind the
-- last line feed is always a piece, and not always a line.
theorem filter_lines (text : List Char) :
    ((lines text).filter fun line => ¬ Blanks line) = filled text := by
  induction text using line_induction with
  | hlast line hfeed =>
      rw [lines_of_not_mem hfeed, filled, pieces_of_not_mem hfeed]
      by_cases hnil : line = []
      · rw [if_pos hnil, hnil]
        rfl
      · rw [if_neg hnil]
  | hline line rest hfeed ih =>
      rw [lines_append rest hfeed, filled, pieces_append rest hfeed, List.filter_cons,
        List.filter_cons, ih]
      rfl

theorem blanks_trimStart_iff (text : List Char) : Blanks (trimStart text) ↔ Blanks text := by
  have hbefore : Blanks (text.takeWhile isBlank) := fun c hc => List.mem_takeWhile_imp hc
  conv_rhs => rw [← List.takeWhile_append_dropWhile (p := isBlank) (l := text), blanks_append_iff]
  exact (and_iff_right hbefore).symm

-- Trimming at the start goes on into what stands behind a blank text, and not farther.
theorem trimStart_append (text rest : List Char) :
    trimStart (text ++ rest) = if Blanks text then trimStart rest else trimStart text ++ rest := by
  by_cases hblanks : Blanks text
  · rw [if_pos hblanks]
    exact List.dropWhile_append_of_pos hblanks
  · have hkept : trimStart text ≠ [] := fun hnil => hblanks (List.dropWhile_eq_nil_iff.mp hnil)
    rw [if_neg hblanks, trimStart, List.dropWhile_append, if_neg]
    · rfl
    · rwa [List.isEmpty_iff]

-- Likewise for the end, which is the start of the reversed text.
theorem trimEnd_append (text rest : List Char) :
    trimEnd (text ++ rest) = if Blanks rest then trimEnd text else text ++ trimEnd rest := by
  have hreverse : Blanks rest.reverse ↔ Blanks rest :=
    forall_congr' fun c => imp_congr_left List.mem_reverse
  have hstart := trimStart_append rest.reverse text.reverse
  rw [trimEnd, List.reverse_append]
  change (trimStart (rest.reverse ++ text.reverse)).reverse = _
  rw [hstart]
  by_cases hblanks : Blanks rest
  · rw [if_pos hblanks, if_pos (hreverse.mpr hblanks)]
    rfl
  · rw [if_neg hblanks, if_neg fun h => hblanks (hreverse.mp h), List.reverse_append,
      List.reverse_reverse]
    rfl

theorem trimStart_cons_lineFeed (rest : List Char) : trimStart ('\n' :: rest) = trimStart rest :=
  List.dropWhile_cons_of_pos isBlank_lineFeed

theorem lineFeed_not_mem_trimStart {line : List Char} (h : '\n' ∉ line) :
    '\n' ∉ trimStart line :=
  fun hmem => h ((List.dropWhile_sublist isBlank).mem hmem)

-- By induction on the lines. Blank ones are removed with what is trimmed, and the first that is
-- not blank is where trimming ends.
theorem filled_trimStart (text : List Char) :
    filled (trimStart text) = (filled text).modifyHead trimStart := by
  induction text using line_induction with
  | hlast line hfeed =>
      rw [filled_of_not_mem hfeed, filled_of_not_mem (lineFeed_not_mem_trimStart hfeed),
        apply_ite (List.modifyHead trimStart)]
      simp only [blanks_trimStart_iff]
      rfl
  | hline line rest hfeed ih =>
      rw [trimStart_append, filled_append rest hfeed]
      by_cases hblanks : Blanks line
      · rw [if_pos hblanks, if_pos hblanks, trimStart_cons_lineFeed]
        exact ih
      · have htrimmed : ¬ Blanks (trimStart line) := fun h =>
          hblanks ((blanks_trimStart_iff line).mp h)
        rw [if_neg hblanks, if_neg hblanks,
          filled_append rest (lineFeed_not_mem_trimStart hfeed), if_neg htrimmed,
          dropReturn_trimStart hblanks]
        rfl

-- At the end a line is the last that is not blank if the rest of the text is blank.
theorem filled_trimEnd (text : List Char) :
    filled (trimEnd text) = (filled text).modifyLast trimEnd := by
  have hlast : ∀ line, '\n' ∉ line →
      filled (trimEnd line) = if Blanks line then [] else [trimEnd line] := by
    intro line hfeed
    rw [filled_of_not_mem ((padded_trimEnd line).not_mem hfeed)]
    simp only [(padded_trimEnd line).blanks_iff]
  induction text using line_induction with
  | hlast line hfeed =>
      rw [hlast line hfeed, filled_of_not_mem hfeed, apply_ite (List.modifyLast trimEnd)]
      rfl
  | hline line rest hfeed ih =>
      rw [trimEnd_append, filled_append rest hfeed]
      simp only [blanks_cons_lineFeed_iff]
      by_cases hrest : Blanks rest
      · rw [if_pos hrest, (filled_eq_nil_iff rest).mpr hrest, List.append_nil, hlast line hfeed,
          ← (padded_dropReturn line).trimEnd_eq, apply_ite (List.modifyLast trimEnd)]
        rfl
      · have hne : filled rest ≠ [] := fun hnil => hrest ((filled_eq_nil_iff rest).mp hnil)
        have htrim : trimEnd ('\n' :: rest) = '\n' :: trimEnd rest := by
          rw [← List.singleton_append, trimEnd_append, if_neg hrest]
          rfl
        rw [if_neg hrest, htrim, filled_append (trimEnd rest) hfeed, ih,
          List.modifyLast_append_of_right_ne_nil _ _ _ hne]

/-- Trimming a text trims the start of its first line that is not blank and the end of the last, and
    keeps the lines between as they are. -/
theorem filled_trim (text : List Char) : filled (trim text) = trimOuter (filled text) := by
  rw [trim, filled_trimEnd, filled_trimStart, trimOuter]

/-- Among lines that are not blank only the first can get another first character from trimming. -/
theorem head?_trimOuter {lines : List (List Char)} (h : ∀ line ∈ lines, ¬ Blanks line) :
    (trimOuter lines).map List.head? = (lines.modifyHead trimStart).map List.head? := by
  have htrimmed : ∀ line ∈ lines.modifyHead trimStart, ¬ Blanks line := by
    cases lines with
    | nil => exact h
    | cons first others =>
        rcases List.forall_mem_cons.mp h with ⟨hfirst, hothers⟩
        refine List.forall_mem_cons.mpr ⟨fun hblanks => hfirst ?_, hothers⟩
        exact (blanks_trimStart_iff first).mp hblanks
  rw [trimOuter]
  rcases List.eq_nil_or_concat' (lines.modifyHead trimStart) with hnil | ⟨init, last, hlines⟩
  · rw [hnil]
    rfl
  · rw [hlines, List.modifyLast_concat, List.map_append, List.map_append]
    have hlast : ¬ Blanks last := htrimmed last (hlines ▸ List.mem_concat_self)
    rw [List.map_singleton, List.map_singleton, (padded_trimEnd last).head?_eq hlast]

-- Lines that were put together are the pieces of the whole, but for carriage returns.
theorem pieces_intercalate {init : List (List Char)} {last : List Char}
    (h : ∀ line ∈ init ++ [last], '\n' ∉ line) :
    pieces (['\n'].intercalate (init ++ [last])) = init.map dropReturn ++ [last] := by
  rw [pieces, List.splitOn_intercalate '\n' h (List.concat_ne_nil last init), List.dropLast_concat,
    List.getLast?_concat]
  rfl

end TreeQuery.Text
