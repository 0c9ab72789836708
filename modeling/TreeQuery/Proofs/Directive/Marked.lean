import TreeQuery.Proofs.Directive.ReportedName

/-!
# Marked lines

Which lines of a documentation are read as directives. Only plain text counts. It is
trimmed as a whole before it is taken apart, and only then is the marker looked for, so
that trimming decides about markers as well.

It decides about very few of them. A text loses its blank lines, and of the others the
first loses its indentation and the last the blanks at its end. The end of a line has
no say in how it begins. So a marker has to stand at the very beginning of its line,
except in the first line of a text that is not blank, where it may be indented.

## Main definitions

* `markedLines`: The marked lines of a text, found line by line.

## Theorems

* `filter_lines_trim`: They are the marked lines of the trimmed text.
* `marked_getElem?_trimOuter`: Which line is marked when the outer ends are trimmed.
* `lines_of_documentation`: Which lines of a documentation are read as directives.
-/

namespace TreeQuery.Directive

open Text

/-- The lines of a text that begin with the marker. Lines that are blank throughout do not count,
    and of the others the first is trimmed at its start and the last one at its end. -/
def markedLines (text : List Char) : List (List Char) :=
  (trimOuter (filled text)).filter fun line => line.head? == some marker

theorem not_blanks_of_marked {line : List Char} (h : line.head? = some marker) :
    ¬ Blanks line := by
  intro hblanks
  have hmarker := hblanks marker (List.mem_of_mem_head? h)
  exact absurd hmarker (by decide)

-- No marked line is blank, so that it makes no difference when blank lines are left out.
theorem filter_marked_filter (lines : List (List Char)) :
    ((lines.filter fun line => ¬ Blanks line).filter fun line => line.head? == some marker) =
      lines.filter fun line => line.head? == some marker := by
  rw [List.filter_filter]
  refine List.filter_congr fun line _ => ?_
  rw [Bool.and_eq_left_iff_imp, decide_eq_true_iff]
  exact fun hmarked => not_blanks_of_marked (eq_of_beq hmarked)

/-- The marked lines of a trimmed text can be found without trimming it. -/
theorem filter_lines_trim (text : List Char) :
    ((lines (trim text)).filter fun line => line.head? == some marker) = markedLines text := by
  rw [markedLines, ← filled_trim, ← filter_lines, filter_marked_filter]

-- The first of the lines that are not blank is marked if the marker is the first character in it
-- that is not blank, and every other line if the marker is its first character.
theorem marked_getElem?_trimOuter {text line : List Char} {k : Nat}
    (h : (filled text)[k]? = some line) :
    ∃ trimmed, (trimOuter (filled text))[k]? = some trimmed ∧
      (trimmed.head? = some marker ↔
        (if k = 0 then trimStart line else line).head? = some marker) := by
  have hfilled : ∀ other ∈ filled text, ¬ Blanks other := fun other hother =>
    of_decide_eq_true (List.mem_filter.mp hother).2
  have hhead : (trimOuter (filled text))[k]?.map List.head? =
      some (if k = 0 then trimStart line else line).head? := by
    rw [← List.getElem?_map, head?_trimOuter hfilled, List.getElem?_map,
      List.getElem?_modifyHead, h]
    by_cases hk : k = 0
    · rw [if_pos hk, if_pos hk]
      rfl
    · rw [if_neg hk, if_neg hk]
      rfl
  rcases Option.map_eq_some_iff.mp hhead with ⟨trimmed, htrimmed, hsame⟩
  exact ⟨trimmed, htrimmed, by rw [hsame]⟩

/-- The lines of directives in a documentation are the marked lines of its plain texts, one text
    after the other, and whatever else the documentation has makes no difference. A marker behind
    blanks counts in the first line of a text that is not blank, and in no other. No line goes on
    behind a line feed. -/
theorem lines_of_documentation (parts : List DocPart) :
    linesOf parts = (parts.filter DocPart.isText).flatMap (fun part =>
        (markedLines part.text.toList).map String.ofList) ∧
      (∀ others : List DocPart, others.filter DocPart.isText = parts.filter DocPart.isText →
        linesOf others = linesOf parts) ∧
      (∀ part ∈ parts, ∀ k line, (filled part.text.toList)[k]? = some line →
        ∃ trimmed, (trimOuter (filled part.text.toList))[k]? = some trimmed ∧
          (trimmed.head? = some marker ↔
            (if k = 0 then trimStart line else line).head? = some marker)) ∧
      ∀ line ∈ linesOf parts, '\n' ∉ line.toList := by
  refine ⟨?_, ?_, ?_, ?_⟩
  · simp only [linesOf, filter_lines_trim]
  · intro others hothers
    rw [linesOf, linesOf, hothers]
  · intro part _ k line hline
    exact marked_getElem?_trimOuter hline
  · intro line hline
    exact (marked_of_mem_linesOf hline).2

/-- An indented marker counts in the first line that is not blank and does not in the second. The
    marker in a link is no directive. -/
theorem lines_of_documentation_indented :
    let parts := [DocPart.plain " \r\n  !a\n  !b\r\n!c  \n", .lineBreak, ⟨.linkText, "!d"⟩]
    linesOf parts = ["!a", "!c"] ∧ linesOf (.lineBreak :: parts) = ["!a", "!c"] ∧
      (∃ trimmed, (trimOuter (filled " \r\n  !a\n  !b\r\n!c  \n".toList))[0]? = some trimmed ∧
        trimmed.head? = some marker) ∧
      (∃ trimmed, (trimOuter (filled " \r\n  !a\n  !b\r\n!c  \n".toList))[1]? = some trimmed ∧
        trimmed.head? ≠ some marker) ∧
      '\n' ∉ "!c".toList := by
  intro parts
  rcases lines_of_documentation parts with ⟨hlines, hothers, hmarked, hfeed⟩
  have hfound : linesOf parts = ["!a", "!c"] := hlines.trans (by decide +kernel)
  rcases hmarked (.plain " \r\n  !a\n  !b\r\n!c  \n") List.mem_cons_self 0 "  !a".toList
    (by decide +kernel) with ⟨first, hfirst, hfirstMarked⟩
  rcases hmarked (.plain " \r\n  !a\n  !b\r\n!c  \n") List.mem_cons_self 1 "  !b".toList
    (by decide +kernel) with ⟨second, hsecond, hsecondMarked⟩
  refine ⟨hfound, (hothers (.lineBreak :: parts) rfl).trans hfound,
    ⟨first, hfirst, hfirstMarked.mpr (by decide +kernel)⟩, ⟨second, hsecond, fun h => ?_⟩,
    hfeed "!c" (hfound ▸ by decide)⟩
  exact absurd (hsecondMarked.mp h) (by decide +kernel)

end TreeQuery.Directive
