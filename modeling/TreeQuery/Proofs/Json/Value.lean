import TreeQuery.Json.Value
import TreeQuery.Proofs.Json.Number

/-!
# Skipped values against the grammar

A value of any depth is skipped exactly. The reader keeps a list of the brackets that
are open, and the grammar nests values in values, so the two have to be brought
together: what the reader still has to read at any moment is a value, if one comes
next, and then for each open bracket the parts that it is still to hold and the bracket
that closes it. Every run of the reader has read such a text.

For the other direction no stack is needed. A value in front of a text is passed in any
surroundings, which is one step of the reader seen from outside, and that holds of
brackets if it holds of the values in them.

## Main definitions

* `Closing`, `Pending`: What is left to be read while brackets are open.
* `Passed`: A value is passed whatever brackets are open.

## Theorems

* `skipColon_append`, `exists_blanks_of_skipColon`: Colons.
* `exists_pending_of_skipNested`: Every run reads what is left to be read.
* `passed_of_isValue`: Every value is passed.
* `skipValue_append`, `exists_isValue_of_skipValue`: Values that are skipped.
-/

namespace TreeQuery.Json

theorem skipColon_append {gap : List Char} (h : Blanks gap) (rest : List Char) :
    skipColon (gap ++ ':' :: rest) = .ok rest := by
  rw [skipColon, skipBlanks_append_cons h (by decide)]
  exact if_pos rfl

theorem exists_blanks_of_skipColon {text rest : List Char} (h : skipColon text = .ok rest) :
    ∃ gap, Blanks gap ∧ text = gap ++ ':' :: rest := by
  unfold skipColon at h
  split at h
  · cases h
  next hblanks =>
    split at h
    next hcolon =>
      rw [hcolon, Except.ok.inj h] at hblanks
      exact exists_blanks_of_skipBlanks hblanks
    · cases h

theorem skipName_append {before name after : List Char} (hbefore : Blanks before)
    (hname : IsContent name) (hafter : Blanks after) (rest : List Char) :
    skipName (before ++ '"' :: (name ++ '"' :: (after ++ ':' :: rest))) = .ok rest := by
  simp only [skipName, skipBlanks_append_cons hbefore (c := '"') rfl, if_true,
    skipText_append hname,
    skipColon_append hafter]

theorem exists_name_of_skipName {text rest : List Char} (h : skipName text = .ok rest) :
    ∃ before name after, Blanks before ∧ IsContent name ∧ Blanks after ∧
      text = before ++ '"' :: (name ++ '"' :: (after ++ ':' :: rest)) := by
  unfold skipName at h
  split at h
  · cases h
  next hblanks =>
    split at h
    next hquote =>
      split at h
      · cases h
      next hread =>
        rcases exists_blanks_of_skipBlanks hblanks with ⟨before, hbefore, rfl⟩
        rcases exists_isContent_of_skipText hread with ⟨name, hname, rfl⟩
        rcases exists_blanks_of_skipColon h with ⟨after, hafter, rfl⟩
        rw [hquote]
        exact ⟨before, name, after, hbefore, hname, hafter, rfl⟩
    · cases h

theorem exists_isValue_of_skipScalar {text rest : List Char} (h : skipScalar text = .ok rest) :
    ∃ value, IsValue value ∧ text = value ++ rest := by
  unfold skipScalar at h
  split at h
  · cases h
  next c tail =>
    split at h
    next hquote =>
      rcases exists_isContent_of_skipText h with ⟨content, hcontent, rfl⟩
      refine ⟨_, IsValue.text hcontent, ?_⟩
      rw [hquote, List.cons_append, List.append_assoc, List.singleton_append]
    split at h
    next hn =>
      rw [hn, skipWord_eq_ok_iff.mp h]
      exact ⟨nullWord, IsValue.null, rfl⟩
    split at h
    next ht =>
      rw [ht, skipWord_eq_ok_iff.mp h]
      exact ⟨trueWord, IsValue.yes, rfl⟩
    split at h
    next hf =>
      rw [hf, skipWord_eq_ok_iff.mp h]
      exact ⟨falseWord, IsValue.no, rfl⟩
    split at h
    · rcases exists_isNumber_of_skipNumber h with ⟨number, hnumber, htext⟩
      exact ⟨number, IsValue.number hnumber, htext⟩
    · cases h

theorem skipScalar_number {number rest : List Char} (h : IsNumber number) (hrest : Ends rest) :
    skipScalar (number ++ rest) = .ok rest := by
  rcases h.exists_cons with ⟨c, tail, rfl, hc⟩
  have hskip := skipNumber_append h hrest
  rw [List.cons_append] at hskip
  rw [List.cons_append, skipScalar, if_neg (ne_of_opensNumber hc rfl),
    if_neg (ne_of_opensNumber hc rfl), if_neg (ne_of_opensNumber hc rfl),
    if_neg (ne_of_opensNumber hc rfl), if_pos hc]
  exact hskip

/-! ### What a run has read -/

/-- What is left behind a value while brackets are open: for each bracket, the innermost first, the
    parts that it is still to hold and the bracket that closes it. -/
inductive Closing : List Bracket → List Char → Prop
  | nil : Closing [] []
  | array {gap : List Char} {elements : List Element} {opened : List Bracket} {rest : List Char}
      (hgap : Blanks gap) (hspaced : ∀ element ∈ elements, element.Spaced)
      (hvalues : ∀ element ∈ elements, IsValue element.value) (hrest : Closing opened rest) :
      Closing (.array :: opened) (gap ++ (behindCommas (elements.map Element.text) ++ ']' :: rest))
  | object {gap : List Char} {members : List Member} {opened : List Bracket} {rest : List Char}
      (hgap : Blanks gap) (hwell : ∀ member ∈ members, member.WellFormed)
      (hrest : Closing opened rest) :
      Closing (.object :: opened) (gap ++ (behindCommas (members.map Member.text) ++ '}' :: rest))

/-- What is left at either place of the reader. -/
def Pending (opened : List Bracket) (text : List Char) : Place → Prop
  | .before => ∃ before value rest, Blanks before ∧ IsValue value ∧ Closing opened rest ∧
      text = before ++ (value ++ rest)
  | .behind => Closing opened text

-- The first element of an array has no comma in front of it.
theorem pending_array {opened : List Bracket} {gap front : List Char} (hgap : Blanks gap)
    (h : Pending (.array :: opened) front .before) :
    Pending opened (gap ++ '[' :: front) .before := by
  rcases h with ⟨before, value, rest, hbefore, hvalue, hclosing, rfl⟩
  cases hclosing with
  | @array after elements _ more hafter hspaced hvalues hmore =>
      refine ⟨gap, arrayText [] (⟨before, value, after⟩ :: elements), more, hgap, ?_, hmore, ?_⟩
      · exact IsValue.array blanks_nil (List.forall_mem_cons.mpr ⟨⟨hbefore, hafter⟩, hspaced⟩)
          (List.forall_mem_cons.mpr ⟨hvalue, hvalues⟩)
      · simp only [arrayText_append, inside, List.map_cons, Element.text_append, List.append_assoc]

-- Every other one has, and joins the elements behind it.
theorem closing_array {opened : List Bracket} {gap front : List Char} (hgap : Blanks gap)
    (h : Pending (.array :: opened) front .before) :
    Closing (.array :: opened) (gap ++ ',' :: front) := by
  rcases h with ⟨before, value, rest, hbefore, hvalue, hclosing, rfl⟩
  cases hclosing with
  | @array after elements _ more hafter hspaced hvalues hmore =>
      have hclosing := Closing.array hgap
        (List.forall_mem_cons.mpr ⟨(⟨hbefore, hafter⟩ : Element.Spaced ⟨before, value, after⟩),
          hspaced⟩) (List.forall_mem_cons.mpr ⟨hvalue, hvalues⟩) hmore
      simpa only [List.map_cons, behindCommas_cons, Element.text, List.append_assoc,
        List.cons_append] using hclosing

-- The same for members, which have their names in front.
theorem exists_member_of_pending {opened : List Bracket} {before name after front : List Char}
    (hbefore : Blanks before) (hname : IsContent name) (hafter : Blanks after)
    (h : Pending (.object :: opened) front .before) :
    ∃ (member : Member) (members : List Member) (more : List Char), member.WellFormed ∧
      (∀ other ∈ members, other.WellFormed) ∧ Closing opened more ∧
      before ++ '"' :: (name ++ '"' :: (after ++ ':' :: front)) =
        member.text ++ (behindCommas (members.map Member.text) ++ '}' :: more) := by
  rcases h with ⟨gap, value, rest, hgap, hvalue, hclosing, rfl⟩
  cases hclosing with
  | @object behind members _ more hbehind hwell hmore =>
      refine ⟨⟨before, name, after, gap, value, behind⟩, members, more, ?_, hwell, hmore, ?_⟩
      · exact ⟨⟨hbefore, hafter, hgap, hbehind⟩, hname, hvalue⟩
      · simp only [Member.text, Element.text, List.append_assoc, List.cons_append]

theorem pending_object {opened : List Bracket} {gap before name after front : List Char}
    (hgap : Blanks gap) (hbefore : Blanks before) (hname : IsContent name) (hafter : Blanks after)
    (h : Pending (.object :: opened) front .before) : Pending opened
      (gap ++ '{' :: (before ++ '"' :: (name ++ '"' :: (after ++ ':' :: front)))) .before := by
  rcases exists_member_of_pending hbefore hname hafter h with
    ⟨member, members, more, hmember, hmembers, hmore, heq⟩
  refine ⟨gap, objectText [] (member :: members), more, hgap, ?_, hmore, ?_⟩
  · exact isValue_objectText blanks_nil (List.forall_mem_cons.mpr ⟨hmember, hmembers⟩)
  · rw [heq, objectText_append, List.map_cons, inside, List.append_assoc]

theorem closing_object {opened : List Bracket} {gap before name after front : List Char}
    (hgap : Blanks gap) (hbefore : Blanks before) (hname : IsContent name) (hafter : Blanks after)
    (h : Pending (.object :: opened) front .before) : Closing (.object :: opened)
      (gap ++ ',' :: (before ++ '"' :: (name ++ '"' :: (after ++ ':' :: front)))) := by
  rcases exists_member_of_pending hbefore hname hafter h with
    ⟨member, members, more, hmember, hmembers, hmore, heq⟩
  have hclosing := Closing.object hgap (List.forall_mem_cons.mpr ⟨hmember, hmembers⟩) hmore
  rw [heq]
  simpa only [List.map_cons, behindCommas_cons, List.append_assoc,
    List.cons_append] using hclosing

-- The induction follows the reader. Each of its steps puts what it has read in front of what the
-- rest of the run reads.
theorem exists_pending_of_skipNested {place : Place} {opened : List Bracket}
    {text rest : List Char} (h : skipNested place opened text = .ok rest) :
    ∃ front, Pending opened front place ∧ text = front ++ rest := by
  fun_induction skipNested place opened text with
  | case1 | case2 | case5 | case7 | case9 | case12 | case15 | case16 | case17 | case20 =>
      cases h
  | case3 =>
      rename_i hopen hclose ih
      rcases exists_blanks_of_skipBlanks hopen with ⟨gap, hgap, rfl⟩
      rcases exists_blanks_of_skipBlanks hclose with ⟨inner, hinner, rfl⟩
      rcases ih h with ⟨front, hfront, rfl⟩
      have harray : IsValue (arrayText inner []) :=
        IsValue.array hinner (List.forall_mem_nil _) (List.forall_mem_nil _)
      refine ⟨_, ⟨gap, _, front, hgap, harray, hfront, rfl⟩, ?_⟩
      rw [List.append_assoc, List.append_assoc, arrayText_append, List.map_nil, inside]
  | case4 =>
      rename_i hopen ih
      rcases exists_blanks_of_skipBlanks hopen with ⟨gap, hgap, rfl⟩
      rcases ih h with ⟨front, hfront, rfl⟩
      refine ⟨_, pending_array hgap hfront, ?_⟩
      rw [List.append_assoc, List.cons_append]
  | case6 =>
      rename_i hopen _ hclose ih
      rcases exists_blanks_of_skipBlanks hopen with ⟨gap, hgap, rfl⟩
      rcases exists_blanks_of_skipBlanks hclose with ⟨inner, hinner, rfl⟩
      rcases ih h with ⟨front, hfront, rfl⟩
      have hobject : IsValue (objectText inner []) :=
        isValue_objectText hinner (List.forall_mem_nil _)
      refine ⟨_, ⟨gap, _, front, hgap, hobject, hfront, rfl⟩, ?_⟩
      rw [List.append_assoc, List.append_assoc, objectText_append, List.map_nil, inside]
  | case8 =>
      rename_i hread hopen _ ih
      rcases exists_blanks_of_skipBlanks hopen with ⟨gap, hgap, rfl⟩
      rcases exists_name_of_skipName hread with ⟨before, name, after, hbefore, hname, hafter, rfl⟩
      rcases ih h with ⟨front, hfront, rfl⟩
      refine ⟨_, pending_object hgap hbefore hname hafter hfront, ?_⟩
      simp only [List.append_assoc, List.cons_append]
  | case10 =>
      rename_i hblanks _ _ _ hscalar ih
      rcases exists_blanks_of_skipBlanks hblanks with ⟨gap, hgap, rfl⟩
      rcases exists_isValue_of_skipScalar hscalar with ⟨value, hvalue, htext⟩
      rcases ih h with ⟨front, hfront, rfl⟩
      refine ⟨_, ⟨gap, value, front, hgap, hvalue, hfront, rfl⟩, ?_⟩
      rw [htext, List.append_assoc, List.append_assoc]
  | case11 =>
      rw [Except.ok.inj h]
      exact ⟨[], Closing.nil, rfl⟩
  | case13 =>
      rename_i hblanks ih
      rcases exists_blanks_of_skipBlanks hblanks with ⟨gap, hgap, rfl⟩
      rcases ih h with ⟨front, hfront, rfl⟩
      refine ⟨_, closing_array hgap hfront, ?_⟩
      rw [List.append_assoc, List.cons_append]
  | case14 =>
      rename_i hblanks _ ih
      rcases exists_blanks_of_skipBlanks hblanks with ⟨gap, hgap, rfl⟩
      rcases ih h with ⟨front, hfront, rfl⟩
      have hnone : ∀ element ∈ ([] : List Element), IsValue element.value := List.forall_mem_nil _
      refine ⟨_, Closing.array hgap (List.forall_mem_nil _) hnone hfront, ?_⟩
      rw [List.append_assoc]
      rfl
  | case18 =>
      rename_i hread hblanks ih
      rcases exists_blanks_of_skipBlanks hblanks with ⟨gap, hgap, rfl⟩
      rcases exists_name_of_skipName hread with ⟨before, name, after, hbefore, hname, hafter, rfl⟩
      rcases ih h with ⟨front, hfront, rfl⟩
      refine ⟨_, closing_object hgap hbefore hname hafter hfront, ?_⟩
      simp only [List.append_assoc, List.cons_append]
  | case19 =>
      rename_i hblanks _ ih
      rcases exists_blanks_of_skipBlanks hblanks with ⟨gap, hgap, rfl⟩
      rcases ih h with ⟨front, hfront, rfl⟩
      have hnone : ∀ member ∈ ([] : List Member), member.WellFormed := List.forall_mem_nil _
      refine ⟨_, Closing.object hgap hnone hfront, ?_⟩
      rw [List.append_assoc]
      rfl

/-- What is skipped as a value is one, behind blanks. -/
theorem exists_isValue_of_skipValue {text rest : List Char} (h : skipValue text = .ok rest) :
    ∃ before value, Blanks before ∧ IsValue value ∧ text = before ++ (value ++ rest) := by
  rcases exists_pending_of_skipNested h with ⟨front, hfront, rfl⟩
  rcases hfront with ⟨before, value, more, hbefore, hvalue, hmore, rfl⟩
  cases hmore with
  | nil => exact ⟨before, value, hbefore, hvalue, by simp only [List.append_assoc, List.nil_append]⟩

/-! ### One value seen from outside -/

-- The reader without what it carries along to show that it comes to an end.
theorem skipNested_before (opened : List Bracket) (text : List Char) :
    skipNested .before opened text =
      match skipBlanks text with
      | [] => .error .ended
      | c :: rest =>
        if c = '[' then
          match skipBlanks rest with
          | [] => .error .ended
          | d :: after =>
            if d = ']' then skipNested .behind opened after
            else skipNested .before (.array :: opened) rest
        else if c = '{' then
          match skipBlanks rest with
          | [] => .error .ended
          | d :: after =>
            if d = '}' then skipNested .behind opened after
            else
              match skipName rest with
              | .error fault => .error fault
              | .ok after => skipNested .before (.object :: opened) after
        else
          match skipScalar (c :: rest) with
          | .error fault => .error fault
          | .ok after => skipNested .behind opened after := by
  rw [skipNested]
  split
  next hblanks => simp only [hblanks]
  next hblanks =>
    simp only [hblanks]
    congr 1
    · split
      next hinner => simp only [hinner]
      next hinner => simp only [hinner]
    congr 1
    · split
      next hinner => simp only [hinner]
      next hinner =>
        simp only [hinner]
        congr 1
        split
        next hname => simp only [hname]
        next hname => simp only [hname]
    · split
      next hscalar => simp only [hscalar]
      next hscalar => simp only [hscalar]

theorem skipNested_behind_array (outer : List Bracket) (text : List Char) :
    skipNested .behind (.array :: outer) text =
      match skipBlanks text with
      | [] => .error .ended
      | c :: rest =>
        if c = ',' then skipNested .before (.array :: outer) rest
        else if c = ']' then skipNested .behind outer rest
        else .error .malformed := by
  rw [skipNested]
  split
  next hblanks => simp only [hblanks]
  next hblanks => simp only [hblanks]

theorem skipNested_behind_object (outer : List Bracket) (text : List Char) :
    skipNested .behind (.object :: outer) text =
      match skipBlanks text with
      | [] => .error .ended
      | c :: rest =>
        if c = ',' then
          match skipName rest with
          | .error fault => .error fault
          | .ok after => skipNested .before (.object :: outer) after
        else if c = '}' then skipNested .behind outer rest
        else .error .malformed := by
  rw [skipNested]
  split
  next hblanks => simp only [hblanks]
  next hblanks =>
    simp only [hblanks]
    congr 1
    split
    next hname => simp only [hname]
    next hname => simp only [hname]

/-- The value is passed whatever brackets are open around it. -/
def Passed (value : List Char) : Prop :=
  ∀ (opened : List Bracket) (before rest : List Char), Blanks before → Ends rest →
    skipNested .before opened (before ++ (value ++ rest)) = skipNested .behind opened rest

theorem passed_of_skipScalar {c : Char} {tail : List Char} (hblank : isBlank c = false)
    (harray : c ≠ '[') (hobject : c ≠ '{')
    (h : ∀ rest, Ends rest → skipScalar (c :: (tail ++ rest)) = .ok rest) :
    Passed (c :: tail) := by
  intro opened before rest hbefore hrest
  rw [List.cons_append, skipNested_before, skipBlanks_append_cons hbefore hblank]
  simp only [if_neg harray, if_neg hobject, h rest hrest]

-- By induction on the elements that are left. Each of them is passed, and then the reader is where
-- it was, with one element less.
theorem skipNested_elements {elements : List Element}
    (hspaced : ∀ element ∈ elements, element.Spaced)
    (hpassed : ∀ element ∈ elements, Passed element.value) (opened : List Bracket)
    {gap : List Char} (hgap : Blanks gap) (rest : List Char) :
    skipNested .behind (.array :: opened)
        (gap ++ (behindCommas (elements.map Element.text) ++ ']' :: rest)) =
      skipNested .behind opened rest := by
  induction elements generalizing gap with
  | nil =>
      rw [skipNested_behind_array, List.map_nil, behindCommas_nil, List.nil_append,
        skipBlanks_append_cons hgap (by decide)]
      rfl
  | cons element others ih =>
      rcases List.forall_mem_cons.mp hspaced with ⟨hspaced, hothers⟩
      rcases List.forall_mem_cons.mp hpassed with ⟨hpassed, hrest⟩
      simp only [List.map_cons, behindCommas_cons, Element.text, List.append_assoc,
        List.cons_append]
      rw [skipNested_behind_array, skipBlanks_append_cons hgap (by decide)]
      have hends := ends_blanks_append hspaced.after
        (ends_behindCommas (Or.inl rfl) (others.map Element.text) rest)
      exact (hpassed _ _ _ hspaced.before hends).trans (ih hothers hrest hspaced.after)

theorem skipNested_members {members : List Member} (hspaced : ∀ member ∈ members, member.Spaced)
    (hnames : ∀ member ∈ members, IsContent member.name)
    (hpassed : ∀ member ∈ members, Passed member.element.value) (opened : List Bracket)
    {gap : List Char} (hgap : Blanks gap) (rest : List Char) :
    skipNested .behind (.object :: opened)
        (gap ++ (behindCommas (members.map Member.text) ++ '}' :: rest)) =
      skipNested .behind opened rest := by
  induction members generalizing gap with
  | nil =>
      rw [skipNested_behind_object, List.map_nil, behindCommas_nil, List.nil_append,
        skipBlanks_append_cons hgap (by decide)]
      rfl
  | cons member others ih =>
      rcases List.forall_mem_cons.mp hspaced with ⟨hspaced, hothers⟩
      rcases List.forall_mem_cons.mp hnames with ⟨hname, hnames⟩
      rcases List.forall_mem_cons.mp hpassed with ⟨hpassed, hrest⟩
      simp only [List.map_cons, behindCommas_cons, Member.text, Element.text,
        List.append_assoc, List.cons_append]
      rw [skipNested_behind_object, skipBlanks_append_cons hgap (by decide)]
      simp only [skipName_append hspaced.before hname hspaced.after, if_true]
      have hends := ends_blanks_append hspaced.element.after
        (ends_behindCommas (Or.inr rfl) (others.map Member.text) rest)
      exact (hpassed _ _ _ hspaced.element.before hends).trans
        (ih hothers hnames hrest hspaced.element.after)

theorem passed_of_isValue {value : List Char} (h : IsValue value) : Passed value := by
  induction h with
  | null => exact passed_of_skipScalar rfl (by decide) (by decide) fun rest _ => rfl
  | yes => exact passed_of_skipScalar rfl (by decide) (by decide) fun rest _ => rfl
  | no => exact passed_of_skipScalar rfl (by decide) (by decide) fun rest _ => rfl
  | @text content hcontent =>
      refine passed_of_skipScalar rfl (by decide) (by decide) fun rest _ => ?_
      rw [List.append_assoc, skipScalar, if_pos rfl]
      exact skipText_append hcontent rest
  | number hnumber =>
      rcases hnumber.exists_cons with ⟨c, tail, rfl, hc⟩
      exact passed_of_skipScalar (not_isBlank_of_opensNumber hc) (ne_of_opensNumber hc rfl)
        (ne_of_opensNumber hc rfl) fun rest hrest => skipScalar_number hnumber hrest
  | @array gap elements hgap hspaced hvalues ih =>
      intro opened before rest hbefore hrest
      rw [arrayText_append, skipNested_before, skipBlanks_append_cons hbefore (by decide)]
      simp only [if_true]
      cases elements with
      | nil =>
          rw [List.map_nil, inside, skipBlanks_append_cons hgap (by decide)]
          exact if_pos rfl
      | cons element others =>
          rcases List.forall_mem_cons.mp hspaced with ⟨hspaced, hothers⟩
          rcases List.forall_mem_cons.mp ih with ⟨hpassed, hrest⟩
          rcases exists_cons_of_isValue (hvalues element List.mem_cons_self) with
            ⟨c, tail, hvalue, hblank, hc⟩
          have hends := ends_blanks_append hspaced.after
            (ends_behindCommas (Or.inl rfl) (others.map Element.text) rest)
          have hinner := hpassed (.array :: opened) element.before _ hspaced.before hends
          simp only [List.map_cons, inside, Element.text, List.append_assoc]
          rw [hvalue, List.cons_append] at hinner ⊢
          simp only [skipBlanks_append_cons hspaced.before hblank, if_neg hc]
          exact hinner.trans (skipNested_elements hothers hrest opened hspaced.after rest)
  | @object gap members hgap hspaced hnames hvalues ih =>
      intro opened before rest hbefore hrest
      rw [objectText_append, skipNested_before, skipBlanks_append_cons hbefore (by decide)]
      simp only [if_neg (show '{' ≠ '[' by decide), if_true]
      cases members with
      | nil =>
          rw [List.map_nil, inside, skipBlanks_append_cons hgap (by decide)]
          exact if_pos rfl
      | cons member others =>
          rcases List.forall_mem_cons.mp hspaced with ⟨hspaced, hothers⟩
          rcases List.forall_mem_cons.mp hnames with ⟨hname, hnames⟩
          rcases List.forall_mem_cons.mp ih with ⟨hpassed, hrest⟩
          have hends := ends_blanks_append hspaced.element.after
            (ends_behindCommas (Or.inr rfl) (others.map Member.text) rest)
          simp only [List.map_cons, inside, Member.text, Element.text, List.append_assoc,
            List.cons_append]
          simp only [skipBlanks_append_cons hspaced.before (show isBlank '"' = false from rfl),
            if_neg (show '"' ≠ '}' by decide),
            skipName_append hspaced.before hname hspaced.after]
          exact (hpassed _ _ _ hspaced.element.before hends).trans
            (skipNested_members hothers hnames hrest opened hspaced.element.after rest)

/-- A value is skipped, and nothing else, if what follows does not continue it. -/
theorem skipValue_append {before value rest : List Char} (hbefore : Blanks before)
    (hvalue : IsValue value) (hrest : Ends rest) :
    skipValue (before ++ (value ++ rest)) = .ok rest := by
  rw [skipValue, passed_of_isValue hvalue [] before rest hbefore hrest, skipNested]

end TreeQuery.Json
