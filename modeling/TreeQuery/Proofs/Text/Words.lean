import Mathlib.Data.List.DropRight
import Mathlib.Data.List.TakeWhile
import TreeQuery.Text.Blank

/-!
# Words between blanks

Every text is either blank throughout, or it begins with blanks, goes on with a word,
and what follows the word is empty or begins with a blank. Taking texts apart like
that, one word at a time, is the recursion behind all that is said about words: the
library's splitting at blanks is related to it once, and not used afterwards.

Trimming at the end is likewise given by what it leaves: the text up to its last
character that is no blank, with nothing but blanks removed.

## Main definitions

* `Blanks`: A text consists of blanks.
* `IsWord`: A text is a word.
* `Separated`: A text is empty or begins with a blank.

## Theorems

* `words_of_blanks`, `words_append_of_blanks`, `words_append_of_word`: The words of
  a text, one at a time.
* `blanks_or_exists_word`: Every text can be taken apart like that.
* `firstWord_eq_nil_iff`: A text has no first word if it is blank throughout.
* `trimStart_append_of_word`: Leading blanks are trimmed up to a word.
* `exists_trimEnd_append`, `trimEnd_append_of_blanks`, `trimEnd_append_word`: What
  trimming removes at the end, and what it leaves.
-/

namespace TreeQuery.Text

/-- The text consists of blanks, of which there may be none. -/
def Blanks (text : List Char) : Prop :=
  ∀ c ∈ text, isBlank c = true

/-- The text is a word: not empty, and without blanks. -/
def IsWord (text : List Char) : Prop :=
  text ≠ [] ∧ ∀ c ∈ text, isBlank c = false

/-- The text is empty or begins with a blank, so that a word in front of it ends there. -/
def Separated (text : List Char) : Prop :=
  ∀ c rest, text = c :: rest → isBlank c = true

theorem separated_nil : Separated [] := by
  intro c rest h
  exact absurd h (by simp only [reduceCtorEq, not_false_eq_true])

theorem separated_of_blanks {text : List Char} (h : Blanks text) : Separated text := by
  rintro c rest rfl
  exact h c List.mem_cons_self

theorem separated_append {gap : List Char} (rest : List Char) (hne : gap ≠ []) (h : Blanks gap) :
    Separated (gap ++ rest) := by
  rcases List.exists_cons_of_ne_nil hne with ⟨first, others, rfl⟩
  intro c more hcons
  rw [List.cons_append, List.cons.injEq] at hcons
  rw [← hcons.1]
  exact h first List.mem_cons_self

theorem separated_dropWhile (text : List Char) :
    Separated (text.dropWhile fun c => !isBlank c) := by
  intro c rest hrest
  have hhead := List.head?_dropWhile_not (fun c => !isBlank c) text
  rw [hrest] at hhead
  simpa only [List.head?_cons, Bool.not_eq_false'] using hhead

theorem blanks_append_iff (left right : List Char) :
    Blanks (left ++ right) ↔ Blanks left ∧ Blanks right :=
  List.forall_mem_append

theorem blanks_append {left right : List Char} (hleft : Blanks left) (hright : Blanks right) :
    Blanks (left ++ right) :=
  (blanks_append_iff left right).mpr ⟨hleft, hright⟩

theorem words_of_blanks {text : List Char} (h : Blanks text) : words text = [] := by
  induction text with
  | nil => rfl
  | cons c rest ih =>
      rcases List.forall_mem_cons.mp h with ⟨hc, hrest⟩
      rw [words, List.splitOnP_cons_eq_if_modifyHead, if_pos hc]
      exact ih hrest

theorem words_append_of_blanks {gap : List Char} (rest : List Char) (h : Blanks gap) :
    words (gap ++ rest) = words rest := by
  induction gap with
  | nil => rfl
  | cons c others ih =>
      rcases List.forall_mem_cons.mp h with ⟨hc, hothers⟩
      rw [words, List.cons_append, List.splitOnP_cons_eq_if_modifyHead, if_pos hc]
      exact ih hothers

-- A word that stands before a blank or the end is the first of the words.
theorem words_append_of_word {word rest : List Char} (hword : IsWord word)
    (hrest : Separated rest) : words (word ++ rest) = word :: words rest := by
  have hkept : (!word.isEmpty) = true := by
    rw [Bool.not_eq_true', List.isEmpty_eq_false_iff]
    exact hword.1
  cases rest with
  | nil =>
      rw [List.append_nil, words, List.splitOnP_eq_singleton hword.2, List.filter_cons,
        if_pos hkept]
      rfl
  | cons c others =>
      have hc := hrest c others rfl
      rw [words, List.splitOnP_append_cons_of_forall_mem hword.2 c hc others,
        List.filter_cons, if_pos hkept, words, List.splitOnP_cons_eq_if_modifyHead, if_pos hc]
      rfl

-- A text is blank throughout, or its first word can be told from what stands around it.
theorem blanks_or_exists_word (text : List Char) :
    Blanks text ∨ ∃ gap word rest, text = gap ++ (word ++ rest) ∧ Blanks gap ∧ IsWord word ∧
      Separated rest := by
  cases hbehind : text.dropWhile isBlank with
  | nil => exact Or.inl (List.dropWhile_eq_nil_iff.mp hbehind)
  | cons first others =>
      have hfirst : isBlank first = false := by
        have h := List.head?_dropWhile_not isBlank text
        rw [hbehind] at h
        simpa only [List.head?_cons] using h
      refine Or.inr ⟨text.takeWhile isBlank, (first :: others).takeWhile fun c => !isBlank c,
        (first :: others).dropWhile fun c => !isBlank c, ?_, ?_, ⟨?_, ?_⟩,
        separated_dropWhile (first :: others)⟩
      · rw [List.takeWhile_append_dropWhile, ← hbehind, List.takeWhile_append_dropWhile]
      · exact fun c hc => List.mem_takeWhile_imp hc
      · rw [List.takeWhile_cons, hfirst]
        simp only [Bool.not_false, if_true, ne_eq, reduceCtorEq, not_false_eq_true]
      · intro c hc
        simpa only [Bool.not_eq_true'] using List.mem_takeWhile_imp hc

-- A text has a first word unless it is blank throughout, and no word is empty.
theorem firstWord_eq_nil_iff (text : List Char) : (words text).headD [] = [] ↔ Blanks text := by
  rcases blanks_or_exists_word text with hblanks | ⟨gap, word, rest, rfl, hgap, hword, hrest⟩
  · rw [words_of_blanks hblanks]
    exact ⟨fun _ => hblanks, fun _ => rfl⟩
  · rw [words_append_of_blanks _ hgap, words_append_of_word hword hrest, List.headD_cons]
    refine ⟨fun hnil => absurd hnil hword.1, fun hblanks => ?_⟩
    have hmem : ∀ c ∈ word, isBlank c = true := fun c hc =>
      hblanks c (List.mem_append_right _ (List.mem_append_left _ hc))
    rcases List.exists_mem_of_ne_nil word hword.1 with ⟨c, hc⟩
    exact absurd ((hword.2 c hc).symm.trans (hmem c hc)) Bool.false_ne_true

-- Blanks in front of a word are trimmed, and the word is not.
theorem trimStart_append_of_word {gap word : List Char} (rest : List Char) (hgap : Blanks gap)
    (hword : IsWord word) : trimStart (gap ++ (word ++ rest)) = word ++ rest := by
  rcases List.exists_cons_of_ne_nil hword.1 with ⟨first, others, rfl⟩
  have hfirst : ¬ isBlank first = true := by
    rw [hword.2 first List.mem_cons_self]
    exact Bool.false_ne_true
  rw [trimStart, List.dropWhile_append_of_pos hgap, List.cons_append, List.dropWhile_cons,
    if_neg hfirst]

-- What is trimmed at the end is blank.
theorem exists_trimEnd_append (text : List Char) :
    ∃ trailing, Blanks trailing ∧ text = trimEnd text ++ trailing :=
  ⟨text.rtakeWhile isBlank, fun _ hc => List.mem_rtakeWhile_imp hc,
    List.rdropWhile_append_rtakeWhile.symm⟩

theorem trimEnd_append_of_blanks {trailing : List Char} (text : List Char) (h : Blanks trailing) :
    trimEnd (text ++ trailing) = trimEnd text := by
  have hreverse : ∀ c ∈ trailing.reverse, isBlank c = true := fun c hc =>
    h c (List.mem_reverse.mp hc)
  rw [trimEnd, List.reverse_append, List.dropWhile_append_of_pos hreverse, trimEnd]

-- Nothing is trimmed behind a word.
theorem trimEnd_append_word {word : List Char} (text : List Char) (h : IsWord word) :
    trimEnd (text ++ word) = text ++ word := by
  refine List.rdropWhile_eq_self_iff.mpr fun hne => ?_
  rw [List.getLast_append_of_ne_nil hne h.1, h.2 _ (List.getLast_mem h.1)]
  exact Bool.false_ne_true

end TreeQuery.Text
