import TreeQuery.Directive.Line
import TreeQuery.Proofs.Text.Words

/-!
# The grammar of directive lines

The lines that declare a directive, described by how they are composed and not by how
they are taken apart. A line is the marker, the name of a directive in any case of its
letters, and then its words, each behind blanks.

The blanks in front of the first word may contain a line feed, those in front of the
others may not, and those at the very end may again. Reading a line trims its end
first, and only then looks for a line feed behind the first word; that is where the
three kinds of gaps differ.

Whoever reads a line cuts the name off at the first blank. The grammar does not say so.
It follows for the names of directives, which have no blanks in them.

## Main definitions

* `Further`: Words behind the first, and the blanks at the end.
* `Arguments`: All that stands behind the name.
* `Declares`: A line declares a directive.

## Theorems

* `Further.split`: Further words, with the blanks at the end cut off.
* `further_words`: Text without a line feed consists of further words.
* `arguments_of_cut?`, `exists_cut?_of_arguments`: Cutting a line finds its name and
  its words.
* `Kind.ofName?_eq_some_iff`: A name calls the directive that it spells in some case.
* `ofLine?_iff_declares`: A line is read as a directive exactly if it declares it.
-/

namespace TreeQuery.Directive

open Text

/-- Words behind the first one, each behind blanks without a line feed, and any blanks at the
    end. -/
inductive Further : List Char → List (List Char) → Prop
  | trailing {blanks : List Char} (hblanks : Blanks blanks) : Further blanks []
  | word {gap word rest : List Char} {words : List (List Char)} (hne : gap ≠ [])
      (hgap : Blanks gap) (hline : '\n' ∉ gap) (hword : IsWord word) (hrest : Further rest words) :
      Further (gap ++ (word ++ rest)) (word :: words)

/-- What stands behind the name of a line: blanks only, or blanks, a first word and further
    words. -/
inductive Arguments : List Char → List (List Char) → Prop
  | none {tail : List Char} (htail : Blanks tail) : Arguments tail []
  | some {gap word rest : List Char} {words : List (List Char)} (hne : gap ≠ [])
      (hgap : Blanks gap) (hword : IsWord word) (hrest : Further rest words) :
      Arguments (gap ++ (word ++ rest)) (word :: words)

/-- The line is the marker, the name of a kind up to the case of its ASCII letters, and the words
    of the directive, which keeps the line as it is. -/
def Declares (line : String) (directive : Directive) : Prop :=
  ∃ (name tail : List Char) (words : List (List Char)),
    line.toList = '!' :: (name ++ tail) ∧
      name.map Char.toLower = directive.kind.name.toList.map Char.toLower ∧
      Arguments tail words ∧ directive.text = line ∧ directive.args = words.map String.ofList

theorem lineFeed_not_mem_of_word {word : List Char} (h : IsWord word) : '\n' ∉ word := by
  intro hmem
  have hblank := h.2 '\n' hmem
  rw [isBlank_lineFeed] at hblank
  exact Bool.false_ne_true hblank.symm

-- The gap before a word is not empty where the text may not begin with the word.
theorem gap_ne_nil {gap word rest : List Char} (hword : IsWord word)
    (h : Separated (gap ++ (word ++ rest))) : gap ≠ [] := by
  rintro rfl
  rcases List.exists_cons_of_ne_nil hword.1 with ⟨first, others, rfl⟩
  have hblank := h first (others ++ rest) rfl
  rw [hword.2 first List.mem_cons_self] at hblank
  exact Bool.false_ne_true hblank

-- Further words end where their last word does, but for blanks, and what stands before them
-- is separated from the first. By induction on the words, from the last one: the part up to
-- it grows to the left.
theorem Further.split {rest : List Char} {words : List (List Char)} (h : Further rest words) :
    Separated rest ∧ ∃ body trailing, rest = body ++ trailing ∧ Blanks trailing ∧
      '\n' ∉ body ∧ Separated body ∧ Text.words body = words ∧
      (body = [] ∨ ∃ before word, body = before ++ word ∧ IsWord word) := by
  induction h with
  | trailing hblanks =>
      exact ⟨separated_of_blanks hblanks, [], _, rfl, hblanks, List.not_mem_nil, separated_nil, rfl,
        Or.inl rfl⟩
  | @word gap word rest words hne hgap hline hword _ ih =>
      rcases ih with ⟨hrest, body, trailing, rfl, htrailing, hbody, hseparated, hwords, hlast⟩
      refine ⟨separated_append _ hne hgap, gap ++ (word ++ body), trailing, ?_, htrailing, ?_,
        separated_append _ hne hgap, ?_, Or.inr ?_⟩
      · simp only [List.append_assoc]
      · simp only [List.mem_append, hline, lineFeed_not_mem_of_word hword, hbody, or_self,
          not_false_eq_true]
      · rw [words_append_of_blanks _ hgap, words_append_of_word hword hseparated, hwords]
      · -- Without further words this one is the last, otherwise the last one stays the last.
        rcases hlast with rfl | ⟨before, last, rfl, hlast⟩
        · exact ⟨gap, word, by rw [List.append_nil], hword⟩
        · exact ⟨gap ++ (word ++ before), last, by simp only [List.append_assoc], hlast⟩

-- Text without a line feed that is separated from what stands before it consists of further
-- words. Each word shortens the text, and the induction is on a bound for its length.
theorem further_words (n : Nat) (text trailing : List Char) (hlength : text.length ≤ n)
    (hline : '\n' ∉ text) (hseparated : Separated text) (htrailing : Blanks trailing) :
    Further (text ++ trailing) (words text) := by
  induction n generalizing text with
  | zero =>
      have hnil : text = [] := List.length_eq_zero_iff.mp (Nat.le_zero.mp hlength)
      rw [hnil]
      exact Further.trailing htrailing
  | succ m ih =>
      rcases blanks_or_exists_word text with hblanks | ⟨gap, word, rest, rfl, hgap, hword, hrest⟩
      · rw [words_of_blanks hblanks]
        exact Further.trailing (blanks_append hblanks htrailing)
      · have hne : gap ≠ [] := gap_ne_nil hword hseparated
        have hpos := List.length_pos_iff.mpr hword.1
        simp only [List.length_append] at hlength
        simp only [List.mem_append, not_or] at hline
        rw [words_append_of_blanks _ hgap, words_append_of_word hword hrest, List.append_assoc,
          List.append_assoc]
        exact Further.word hne hgap hline.1 hword
          (ih rest (by omega) hline.2.2 hrest)

theorem cut?_eq_some_iff {line name text : List Char} :
    cut? line = some (name, text) ↔
      ∃ rest, trimEnd line = '!' :: rest ∧ (rest.takeWhile fun c => !isBlank c) = name ∧
        trimStart (rest.dropWhile fun c => !isBlank c) = text ∧ '\n' ∉ text := by
  unfold cut?
  cases trimEnd line with
  | nil => simp only [reduceCtorEq, false_and, exists_false]
  | cons first rest =>
      by_cases hfirst : first = marker
      · by_cases hline : '\n' ∈ trimStart (rest.dropWhile fun c => !isBlank c)
        · simp only [hfirst, if_true, List.contains_iff_mem, hline, reduceCtorEq, false_iff,
            not_exists, not_and]
          rintro rest' hcons rfl rfl
          rw [← (List.cons.inj hcons).2]
          exact not_not_intro hline
        · simp only [hfirst, if_true, List.contains_iff_mem, hline, if_false, Option.some.injEq,
            Prod.mk.injEq]
          constructor
          · rintro ⟨rfl, rfl⟩
            exact ⟨rest, rfl, rfl, rfl, hline⟩
          · intro hparts
            rcases hparts with ⟨rest', hcons, hname, htext, -⟩
            rw [(List.cons.inj hcons).2]
            exact ⟨hname, htext⟩
      · simp only [hfirst, if_false, reduceCtorEq, false_iff, not_exists, not_and]
        intro rest' hcons
        exact absurd (List.cons.inj hcons).1 hfirst

-- A name that is separated from the text behind it is all that is taken up to a blank.
theorem takeWhile_name {name behind : List Char} (hname : ∀ c ∈ name, isBlank c = false)
    (hbehind : Separated behind) :
    ((name ++ behind).takeWhile fun c => !isBlank c) = name ∧
      ((name ++ behind).dropWhile fun c => !isBlank c) = behind := by
  have hkept : ∀ c ∈ name, (!isBlank c) = true := fun c hc => by
    rw [hname c hc, Bool.not_false]
  rw [List.takeWhile_append_of_pos hkept, List.dropWhile_append_of_pos hkept]
  cases behind with
  | nil => exact ⟨List.append_nil name, rfl⟩
  | cons c rest =>
      have hc := hbehind c rest rfl
      simp only [List.takeWhile_cons, List.dropWhile_cons, hc, Bool.not_true, Bool.false_eq_true,
        if_false, List.append_nil, and_self]

-- What is cut from a line stands in it as the grammar says.
theorem arguments_of_cut? {line name text : List Char} (h : cut? line = some (name, text)) :
    ∃ tail, line = '!' :: (name ++ tail) ∧ (∀ c ∈ name, isBlank c = false) ∧
      Arguments tail (words text) := by
  rcases cut?_eq_some_iff.mp h with ⟨rest, hrest, rfl, rfl, hline⟩
  rcases exists_trimEnd_append line with ⟨trailing, htrailing, hwhole⟩
  refine ⟨(rest.dropWhile fun c => !isBlank c) ++ trailing, ?_, fun c hc => ?_, ?_⟩
  · rw [← List.append_assoc, List.takeWhile_append_dropWhile, ← List.cons_append, ← hrest]
    exact hwhole
  · simpa only [Bool.not_eq_true'] using List.mem_takeWhile_imp hc
  · -- Behind the name stands nothing or a blank, since the name was taken up to there.
    have hbehind := separated_dropWhile rest
    generalize (rest.dropWhile fun c => !isBlank c) = behind at hline hbehind
    rcases blanks_or_exists_word behind with hblanks | ⟨gap, word, more, rfl, hgap, hword, hmore⟩
    · have htrimmed : Blanks (trimStart behind) := fun c hc =>
        hblanks c ((List.dropWhile_sublist _).mem hc)
      rw [words_of_blanks htrimmed]
      exact Arguments.none (blanks_append hblanks htrailing)
    · rw [trimStart_append_of_word more hgap hword] at hline ⊢
      rw [words_append_of_word hword hmore, List.append_assoc, List.append_assoc]
      refine Arguments.some ?_ hgap hword (further_words more.length more trailing le_rfl
        (fun hmem => hline (List.mem_append_right _ hmem)) hmore htrailing)
      exact gap_ne_nil hword hbehind

-- A line that is composed as the grammar says is cut where it was put together.
theorem exists_cut?_of_arguments {name tail : List Char} {words : List (List Char)}
    (hname : ∀ c ∈ name, isBlank c = false) (h : Arguments tail words) :
    ∃ text, cut? ('!' :: (name ++ tail)) = some (name, text) ∧ Text.words text = words := by
  have hhead : IsWord ('!' :: name) := by
    refine ⟨List.cons_ne_nil _ _, fun c hc => ?_⟩
    rcases List.mem_cons.mp hc with rfl | hc
    · exact isBlank_exclamation
    · exact hname c hc
  rw [← List.cons_append]
  cases h with
  | none htail =>
      refine ⟨[], cut?_eq_some_iff.mpr ⟨name, ?_, ?_⟩, rfl⟩
      · rw [trimEnd_append_of_blanks _ htail]
        exact trimEnd_append_word [] hhead
      · have htaken := takeWhile_name hname separated_nil
        rw [List.append_nil] at htaken
        rw [htaken.1, htaken.2]
        exact ⟨rfl, rfl, List.not_mem_nil⟩
  | @some gap word rest words hne hgap hword hrest =>
      rcases hrest.split with
        ⟨-, body, trailing, rfl, htrailing, hbody, hseparated, hwords, hlast⟩
      have htrim : trimEnd ('!' :: name ++ (gap ++ (word ++ (body ++ trailing)))) =
          '!' :: (name ++ (gap ++ (word ++ body))) := by
        -- The line ends with the last of the words, which is the first one if there are no more.
        have hend : ∃ before last, '!' :: (name ++ (gap ++ (word ++ body))) = before ++ last ∧
            IsWord last := by
          rcases hlast with rfl | ⟨before, last, rfl, hlast⟩
          · exact ⟨'!' :: (name ++ gap), word, by simp only [List.append_nil, List.cons_append,
              List.append_assoc], hword⟩
          · exact ⟨'!' :: (name ++ (gap ++ (word ++ before))), last, by simp only
              [List.cons_append, List.append_assoc], hlast⟩
        rcases hend with ⟨before, last, hend, hlast⟩
        have hwhole : '!' :: name ++ (gap ++ (word ++ (body ++ trailing))) =
            before ++ last ++ trailing := by
          rw [← hend]
          simp only [List.cons_append, List.append_assoc]
        rw [hwhole, trimEnd_append_of_blanks _ htrailing, trimEnd_append_word _ hlast, hend]
      rcases takeWhile_name hname (separated_append (word ++ body) hne hgap) with ⟨htake, hdrop⟩
      refine ⟨word ++ body, cut?_eq_some_iff.mpr ⟨_, htrim, htake, ?_, ?_⟩, ?_⟩
      · rw [hdrop, trimStart_append_of_word _ hgap hword]
      · simp only [List.mem_append, hbody, lineFeed_not_mem_of_word hword, or_self,
          not_false_eq_true]
      · rw [words_append_of_word hword hseparated, hwords]

-- No two directives have names that differ in the case of their letters only.
theorem Kind.fold_name_injective {left right : Kind}
    (h : Kind.fold left.name = Kind.fold right.name) : left = right := by
  have hall : ∀ a ∈ Kind.all, ∀ b ∈ Kind.all, Kind.fold a.name = Kind.fold b.name → a = b := by
    decide
  exact hall left (Kind.mem_all left) right (Kind.mem_all right) h

theorem Kind.ofName?_eq_some_iff {text : String} {kind : Kind} :
    Kind.ofName? text = some kind ↔ Kind.fold text = Kind.fold kind.name := by
  unfold Kind.ofName?
  constructor
  · intro h
    have hfound := List.find?_some h
    exact (eq_of_beq hfound).symm
  · intro h
    cases hfind : Kind.all.find? fun kind => Kind.fold kind.name == Kind.fold text with
    | none =>
        have hnot := List.find?_eq_none.mp hfind kind (Kind.mem_all kind)
        rw [h, beq_self_eq_true] at hnot
        exact absurd rfl hnot
    | some found =>
        have hfound := List.find?_some hfind
        rw [Kind.fold_name_injective ((eq_of_beq hfound).trans h)]

-- No blank is a capital letter, so folding the case of a name makes and removes no blanks.
theorem toLower_of_isBlank {c : Char} (h : isBlank c = true) : c.toLower = c := by
  have hletter : ¬ (c.val ≥ 'A'.val ∧ c.val ≤ 'Z'.val) := by
    intro hbetween
    rcases hbetween with ⟨hleft, hright⟩
    have hleft : 65 ≤ c.toNat := UInt32.le_iff_toNat_le.mp hleft
    have hright : c.toNat ≤ 90 := UInt32.le_iff_toNat_le.mp hright
    simp only [isBlank, inRanges, blankRanges, List.any_cons, List.any_nil, Bool.or_eq_true,
      Bool.and_eq_true, decide_eq_true_eq, Bool.or_false] at h
    omega
  exact dif_neg hletter

theorem Kind.isBlank_of_mem_fold_name (kind : Kind) :
    ∀ c ∈ Kind.fold kind.name, isBlank c = false := by
  have hall : ((Kind.fold kind.name).all fun c => !isBlank c) = true := by
    cases kind <;> decide
  intro c hc
  simpa only [Bool.not_eq_true'] using List.all_eq_true.mp hall c hc

theorem ofLine?_eq_some_iff {line : String} {directive : Directive} :
    ofLine? line = some directive ↔ ∃ name text, cut? line.toList = some (name, text) ∧
      Kind.fold (String.ofList name) = Kind.fold directive.kind.name ∧ directive.text = line ∧
        directive.args = (Text.words text).map String.ofList := by
  unfold ofLine?
  simp only [Option.bind_eq_bind, Option.bind_eq_some_iff, Kind.ofName?_eq_some_iff,
    Option.pure_def, Option.some.injEq, Prod.exists]
  constructor
  · intro hread
    rcases hread with ⟨name, text, hcut, kind, hkind, rfl⟩
    exact ⟨name, text, hcut, hkind, rfl, rfl⟩
  · intro hcut
    rcases hcut with ⟨name, text, hcut, hkind, htext, hargs⟩
    refine ⟨name, text, hcut, directive.kind, hkind, ?_⟩
    rw [← htext, ← hargs]

/-- What is read from a line is exactly what the line declares, and a line that declares nothing
    gives nothing. -/
theorem ofLine?_iff_declares (line : String) :
    (∀ directive, ofLine? line = some directive ↔ Declares line directive) ∧
      (ofLine? line = none ↔ ∀ directive, ¬ Declares line directive) := by
  have hsome : ∀ directive, ofLine? line = some directive ↔ Declares line directive := by
    intro directive
    rw [ofLine?_eq_some_iff]
    constructor
    · intro hread
      rcases hread with ⟨name, text, hcut, hkind, htext, hargs⟩
      rcases arguments_of_cut? hcut with ⟨tail, hline, -, htail⟩
      rw [Kind.fold, String.toList_ofList] at hkind
      exact ⟨name, tail, words text, hline, hkind, htail, htext, hargs⟩
    · intro hdeclares
      rcases hdeclares with ⟨name, tail, words, hline, hkind, htail, htext, hargs⟩
      -- The name of a directive has no blanks, in whatever case it is written.
      have hname : ∀ c ∈ name, isBlank c = false := by
        intro c hc
        by_contra hblank
        have hlower := toLower_of_isBlank (Bool.not_eq_false _ ▸ hblank)
        have hmem : c ∈ Kind.fold directive.kind.name := by
          rw [Kind.fold, ← hkind]
          exact List.mem_map.mpr ⟨c, hc, hlower⟩
        exact hblank (Kind.isBlank_of_mem_fold_name directive.kind c hmem)
      rcases exists_cut?_of_arguments hname htail with ⟨text, hcut, rfl⟩
      refine ⟨name, text, ?_, ?_, htext, hargs⟩
      · rw [hline, hcut]
      · rw [Kind.fold, String.toList_ofList]
        exact hkind
  refine ⟨hsome, ?_⟩
  rw [Option.eq_none_iff_forall_ne_some]
  exact forall_congr' fun directive => not_congr (hsome directive)

end TreeQuery.Directive
