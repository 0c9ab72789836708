import Mathlib.Data.List.Forall2
import TreeQuery.Proofs.Directive.Marked

/-!
# Directives that are written back

The lines of the directives in a set, one below the other, are a documentation again.
Reading it gives the same set, as far as anyone can tell who does not look at the
ends of lines.

What was read once was trimmed and taken apart, and now it is trimmed and taken apart
a second time. Each line begins with the marker and has no line feed, so none is split,
none is joined to another and none is lost. But a line may end in blanks. Those of the
last line are trimmed, and if another line ends in a carriage return, this now stands
before a line feed and is taken for a part of the line end. Nothing else is lost. What
a line declares does not depend on the blanks at its end.

The set is in the order in which kinds first occurred, which need not be the order of
the lines in the old documentation. Its kinds are different, so in the new one each
line stands for itself and the order is that of the lines.

## Main definitions

* `DirectiveSet.written`: The lines of the directives in a set, one below the other.
* `Directive.Shortened`: A directive whose line has lost blanks at its end.

## Theorems

* `markedLines_intercalate`: Marked lines that were put together are found again.
* `ofLine?_of_padded`: Blanks at the end of a line do not matter.
* `forall₂_shortened`: Directives that are read from shortened lines.
* `declared_of_mem_values`, `toList_of_value`, `nodup_of_value`: What is known of a set
  that was read.
* `forall₂_linesOf_written`: The lines of a set that was written down.
* `directives_written_back`: A set that is written back is read again.
-/

namespace TreeQuery

/-- The lines of the directives in a set, in its order and with a line feed between any two. -/
def DirectiveSet.written (set : DirectiveSet) : String :=
  "\n".intercalate (set.entries.values.map Directive.text)

namespace Directive

open Text

/-- The later directive is the same, except that its line may have lost blanks at its end. -/
structure Shortened (directive later : Directive) : Prop where
  kind : later.kind = directive.kind
  args : later.args = directive.args
  text : Padded later.text.toList directive.text.toList

-- In front of the marker there is nothing to trim.
theorem modifyHead_trimStart_of_marked {lines : List (List Char)}
    (h : ∀ line ∈ lines, line.head? = some marker) : lines.modifyHead trimStart = lines := by
  cases lines with
  | nil => rfl
  | cons first others =>
      rcases List.head?_eq_some_iff.mp (h first List.mem_cons_self) with ⟨rest, rfl⟩
      rfl

/-- Marked lines that were put together are the marked lines of the whole, except for the carriage
    returns that stand before a line feed now, and for the blanks at the very end. -/
theorem markedLines_intercalate {init : List (List Char)} {last : List Char}
    (hfeed : ∀ line ∈ init ++ [last], '\n' ∉ line)
    (hmarked : ∀ line ∈ init ++ [last], line.head? = some marker) :
    markedLines (['\n'].intercalate (init ++ [last])) =
      init.map dropReturn ++ [trimEnd last] := by
  rcases List.forall_mem_append.mp hmarked with ⟨hinit, hlast⟩
  have hlast := hlast last (List.mem_singleton_self last)
  have hdropped : ∀ line ∈ init.map dropReturn, line.head? = some marker := by
    refine List.forall_mem_map.mpr fun line hline => ?_
    rw [(padded_dropReturn line).head?_eq (not_blanks_of_marked (hinit line hline))]
    exact hinit line hline
  have htrimmed : (trimEnd last).head? = some marker := by
    rw [(padded_trimEnd last).head?_eq (not_blanks_of_marked hlast)]
    exact hlast
  have hpieces : ∀ line ∈ init.map dropReturn ++ [last], line.head? = some marker :=
    List.forall_mem_append.mpr ⟨hdropped, List.forall_mem_singleton.mpr hlast⟩
  have hfilled : filled (['\n'].intercalate (init ++ [last])) = init.map dropReturn ++ [last] := by
    rw [filled, pieces_intercalate hfeed, List.filter_eq_self]
    exact fun line hline => decide_eq_true (not_blanks_of_marked (hpieces line hline))
  rw [markedLines, hfilled, trimOuter, modifyHead_trimStart_of_marked hpieces,
    List.modifyLast_concat, List.filter_eq_self]
  refine List.forall_mem_append.mpr ⟨fun line hline => ?_, List.forall_mem_singleton.mpr ?_⟩
  · exact beq_iff_eq.mpr (hdropped line hline)
  · exact beq_iff_eq.mpr htrimmed

-- Without any lines the whole is empty, and nothing is found in it.
theorem forall₂_markedLines {lines : List (List Char)} (hfeed : ∀ line ∈ lines, '\n' ∉ line)
    (hmarked : ∀ line ∈ lines, line.head? = some marker) :
    List.Forall₂ Padded (markedLines (['\n'].intercalate lines)) lines := by
  rcases List.eq_nil_or_concat' lines with rfl | ⟨init, last, rfl⟩
  · exact List.Forall₂.nil
  · rw [markedLines_intercalate hfeed hmarked]
    refine List.rel_append ?_ (List.Forall₂.cons (padded_trimEnd last) List.Forall₂.nil)
    rw [List.forall₂_map_left_iff, List.forall₂_same]
    exact fun line _ => padded_dropReturn line

-- A line that loses blanks at its end declares the same directive.
theorem ofLine?_of_padded {line : String} {directive : Directive}
    (h : Padded line.toList directive.text.toList)
    (hread : ofLine? directive.text = some directive) :
    ofLine? line = some { directive with text := line } := by
  rcases ofLine?_eq_some_iff.mp hread with ⟨name, text, hcut, hkind, -, hargs⟩
  refine ofLine?_eq_some_iff.mpr ⟨name, text, ?_, hkind, rfl, hargs⟩
  rw [cut?, h.trimEnd_eq]
  exact hcut

-- By induction on the lines, each of which declares what it was made from.
theorem forall₂_shortened {lines : List String} {directives : List Directive}
    (h : List.Forall₂ (fun line directive => Padded line.toList directive.text.toList) lines
      directives)
    (hread : ∀ directive ∈ directives, ofLine? directive.text = some directive) :
    (∀ line ∈ lines, (ofLine? line).isSome) ∧
      List.Forall₂ Shortened directives (lines.filterMap ofLine?) := by
  induction h with
  | nil => exact ⟨List.forall_mem_nil _, List.Forall₂.nil⟩
  | @cons line directive lines directives hline _ ih =>
      rcases List.forall_mem_cons.mp hread with ⟨hfirst, hrest⟩
      rcases ih hrest with ⟨hsome, hshortened⟩
      have hfound := ofLine?_of_padded hline hfirst
      refine ⟨List.forall_mem_cons.mpr ⟨?_, hsome⟩, ?_⟩
      · rw [hfound]
        rfl
      · rw [List.filterMap_cons, hfound]
        exact List.Forall₂.cons ⟨rfl, rfl, hline⟩ hshortened

theorem kinds_of_shortened {directives later : List Directive}
    (h : List.Forall₂ Shortened directives later) :
    later.map Directive.kind = directives.map Directive.kind := by
  induction h with
  | nil => rfl
  | cons hfirst _ ih => rw [List.map_cons, List.map_cons, hfirst.kind, ih]

section Read

variable {symbol : Symbol} {set : DirectiveSet} (h : symbol.directives.value = .ok set)

include h

-- What the documentation of a symbol is read as consists of directives that its lines declare.
theorem declared_of_mem_values :
    ∀ directive ∈ set.entries.values, ofLine? directive.text = some directive ∧
      directive.text.toList.head? = some marker ∧ '\n' ∉ directive.text.toList := by
  rcases (value_directives_eq_ok_iff symbol set).mp h with ⟨-, rfl⟩
  intro directive hdirective
  rcases List.mem_filterMap.mp (DirectiveSet.mem_of_mem_values_ofList hdirective) with
    ⟨line, hline, hread⟩
  rw [text_of_ofLine? line directive hread]
  exact ⟨hread, marked_of_mem_linesOf hline⟩

-- Each of them is held under its kind, and no two have the same one.
theorem toList_of_value :
    set.toList = set.entries.values.map fun directive => (directive.kind, directive) := by
  rcases (value_directives_eq_ok_iff symbol set).mp h with ⟨-, rfl⟩
  exact DirectiveSet.toList_ofList _

theorem nodup_of_value : (set.entries.values.map Directive.kind).Nodup := by
  have hkinds : set.kinds = set.entries.values.map Directive.kind := by
    change set.toList.map (·.1) = _
    rw [toList_of_value h, List.map_map]
    rfl
  rcases (value_directives_eq_ok_iff symbol set).mp h with ⟨-, rfl⟩
  rw [← hkinds]
  exact DirectiveSet.nodup_kinds_ofList _

end Read

-- Such directives are found again where their lines are written down.
theorem forall₂_linesOf_written {set : DirectiveSet}
    (h : ∀ directive ∈ set.entries.values,
      directive.text.toList.head? = some marker ∧ '\n' ∉ directive.text.toList) :
    List.Forall₂ (fun line directive => Padded line.toList directive.text.toList)
      (linesOf [.plain set.written]) set.entries.values := by
  have hlines : linesOf [.plain set.written] =
      (markedLines set.written.toList).map String.ofList := by
    rw [linesOf]
    simp only [DocPart.plain, DocPart.isText, beq_self_eq_true, List.filter_cons_of_pos,
      List.filter_nil, List.flatMap_singleton, filter_lines_trim]
  have hwritten : set.written.toList =
      ['\n'].intercalate (set.entries.values.map fun directive => directive.text.toList) := by
    rw [DirectiveSet.written, String.toList_intercalate, List.map_map]
    rfl
  have hfound : List.Forall₂ Padded (markedLines set.written.toList)
      (set.entries.values.map fun directive => directive.text.toList) := by
    rw [hwritten]
    exact forall₂_markedLines
      (List.forall_mem_map.mpr fun directive hdirective => (h directive hdirective).2)
      (List.forall_mem_map.mpr fun directive hdirective => (h directive hdirective).1)
  rw [List.forall₂_map_right_iff] at hfound
  rw [hlines, List.forall₂_map_left_iff]
  exact hfound.imp fun line directive hpadded => by rwa [String.toList_ofList]

end Directive

/-- A set of directives survives being written back. What a symbol was read as is written down, line
    by line, as the documentation of another symbol. That symbol is read as a set with the same
    kinds in the same order and the same words for each of them, and with the same lines but for
    blanks at their ends. -/
theorem directives_written_back (symbol copy : Symbol) (set : DirectiveSet) (logger : Logger)
    (h : (logger.hear symbol.directives).1 = .ok set)
    (hcopy : copy.documentation = [.plain set.written]) :
    ∃ again, (logger.hear copy.directives).1 = .ok again ∧ again.kinds = set.kinds ∧
      List.Forall₂ (fun entry later => later.1 = entry.1 ∧ Directive.Shortened entry.2 later.2)
        set.toList again.toList := by
  have hvalues := Directive.declared_of_mem_values h
  rcases Directive.forall₂_shortened
    (Directive.forall₂_linesOf_written fun directive hdirective => (hvalues directive hdirective).2)
    fun directive hdirective => (hvalues directive hdirective).1 with ⟨hsome, hshortened⟩
  rw [← hcopy] at hsome hshortened
  have hlist := Directive.toList_of_value h
  have hlater := DirectiveSet.toList_ofList_of_nodup
    (Directive.kinds_of_shortened hshortened ▸ Directive.nodup_of_value h)
  refine ⟨_, (Directive.value_directives_eq_ok_iff copy _).mpr ⟨hsome, rfl⟩, ?_, ?_⟩
  · change List.map (·.1) (DirectiveSet.toList _) = List.map (·.1) set.toList
    rw [hlater, hlist, List.map_map, List.map_map]
    exact Directive.kinds_of_shortened hshortened
  · rw [hlater, hlist, List.forall₂_map_left_iff, List.forall₂_map_right_iff]
    exact hshortened.imp fun directive later hshort => ⟨hshort.kind, hshort⟩

/-- A kind that came again stands where it came first. The carriage return at the end of its line
    is before a line feed when the lines are written down, and lost when they are read again. -/
theorem directives_written_back_repeated :
    let symbol := Symbol.mk "f" ⟨0⟩
      [.plain " !Extension a\n!Phantom \n!EXTENSION b  c\r\r\nplain"] none
    let copy := Symbol.mk "g" ⟨1⟩ [.plain "!EXTENSION b  c\r\n!Phantom "] none
    let set : DirectiveSet := ⟨⟨[(.extension, ⟨.extension, "!EXTENSION b  c\r", ["b", "c"]⟩),
      (.phantom, ⟨.phantom, "!Phantom ", []⟩)]⟩⟩
    (Logger.null.hear symbol.directives).1 = .ok set ∧
      ∃ again, (Logger.null.hear copy.directives).1 = .ok again ∧
        again.kinds = [.extension, .phantom] ∧
        List.Forall₂ (fun entry later => later.1 = entry.1 ∧ Directive.Shortened entry.2 later.2)
          set.toList again.toList := by
  intro symbol copy set
  have hset : (Logger.null.hear symbol.directives).1 = .ok set := by rfl
  exact ⟨hset, directives_written_back symbol copy set .null hset (by decide +kernel)⟩

end TreeQuery
