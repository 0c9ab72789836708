import TreeQuery.Proofs.Json.Members

/-!
# What a record looks like

A record with one field is written as an object or as an array, and either may be without
the field. That is said here by the texts themselves: `Shape.Written` puts the text of a
record together from the text of its field, and mentions no reader.

A reader and a set of texts belong together if the reader takes every one of the texts
off the front of what it is given, and takes nothing else. For the reader of a record
this follows from the same about the reader of its field, and so it does for a record
whose field is a record.

An object is read with the value of the field in hand, once it has been found. The
induction over its members therefore speaks about the members that are left and the value
that has been found before them.

## Main definitions

* `Reads`: A reader takes the texts of a grammar, and only those.
* `Shape`: A record with one field, as it is written.
* `Shape.Own`: The member of the field.
* `Shape.Holds`, `Shape.Written`: The members and the texts of a record.
* `Shape.Fills`: The members that are left, once a value has or has not been found.
* `Shape.Describes`: A shape and a reader of a record that belong together.

## Theorems

* `Shape.fills_none_iff`: What is read from all members is what they hold.
* `Shape.Describes.reads_written`: The reader of a record takes the texts of its shape.
* `Reads.complete_eq_ok_iff`: The texts that are read to their end.
-/

namespace TreeQuery.Json

variable {α : Type}

/-- The reader takes every text of the grammar off the front of what it is given, with the blanks in
    front of it, and it takes nothing else. The texts are values. -/
structure Reads (reader : List Char → Except Fault (α × List Char))
    (Written : α → List Char → Prop) : Prop where
  isValue : ∀ {text : List Char} {value : α}, Written value text → IsValue text
  takes : ∀ {before text rest : List Char} {value : α}, Blanks before → Written value text →
    Ends rest → reader (before ++ (text ++ rest)) = .ok (value, rest)
  only : ∀ {text rest : List Char} {value : α}, reader text = .ok (value, rest) →
    ∃ before written, Blanks before ∧ Written value written ∧ text = before ++ (written ++ rest)

/-- A record with one field, as it is written. -/
structure Shape (α : Type) where
  field : String
  /-- The members that may stand next to the field. -/
  Other : Member → Prop
  /-- The value of the field if it is missing. -/
  missing : α
  /-- The texts of the values of the field. -/
  Field : α → List Char → Prop

namespace Shape

variable (shape : Shape α)

/-- The member of the field, with its value. -/
structure Own (value : α) (member : Member) : Prop where
  spaced : member.Spaced
  name : Spells member.name shape.field.toList
  field : shape.Field value member.element.value

/-- The members of an object and the value of the field there: at most one member is the one of the
    field, and all others may stand next to it. -/
inductive Holds : List Member → α → Prop
  | absent {members : List Member} (hothers : ∀ member ∈ members, shape.Other member) :
      Holds members shape.missing
  | present (earlier : List Member) {later : List Member} {own : Member} {value : α}
      (hown : shape.Own value own) (hothers : ∀ member ∈ earlier ++ later, shape.Other member) :
      Holds (earlier ++ own :: later) value

/-- The texts of a record. An array has at most one element, which is the field. -/
inductive Written : α → List Char → Prop
  | object {gap : List Char} {members : List Member} {value : α} (hgap : Blanks gap)
      (hmembers : shape.Holds members value) : Written value (objectText gap members)
  | nothing {gap : List Char} (hgap : Blanks gap) : Written shape.missing (arrayText gap [])
  | alone {element : Element} {value : α} (hspaced : element.Spaced)
      (hfield : shape.Field value element.value) : Written value (arrayText [] [element])

/-- The members that are left and the value of the field at their end, if `found` is its value in
    front of them. -/
inductive Fills : Option α → List Member → α → Prop
  | done (found : Option α) : Fills found [] (found.getD shape.missing)
  | other {found : Option α} {member : Member} {members : List Member} {value : α}
      (hother : shape.Other member) (hrest : Fills found members value) :
      Fills found (member :: members) value
  | own {member : Member} {members : List Member} {value last : α}
      (hown : shape.Own value member) (hrest : Fills (some value) members last) :
      Fills none (member :: members) last

variable {shape} {members : List Member} {value : α}

theorem fills_of_others (found : Option α) (h : ∀ member ∈ members, shape.Other member) :
    shape.Fills found members (found.getD shape.missing) := by
  induction members with
  | nil => exact Fills.done found
  | cons member others ih =>
      rcases List.forall_mem_cons.mp h with ⟨hother, hothers⟩
      exact Fills.other hother (ih hothers)

theorem fills_append {found : Option α} {earlier later : List Member}
    (h : ∀ member ∈ earlier, shape.Other member) (hlater : shape.Fills found later value) :
    shape.Fills found (earlier ++ later) value := by
  induction earlier with
  | nil => exact hlater
  | cons member others ih =>
      rcases List.forall_mem_cons.mp h with ⟨hother, hothers⟩
      exact Fills.other hother (ih hothers)

-- Once the value has been found, no member of the field can follow.
theorem Fills.others {found last : α} (h : shape.Fills (some found) members last) :
    last = found ∧ ∀ member ∈ members, shape.Other member := by
  generalize hfound : some found = start at h
  induction h with
  | done start =>
      rw [← hfound]
      exact ⟨rfl, List.forall_mem_nil _⟩
  | other hother _ ih => exact ⟨(ih hfound).1, List.forall_mem_cons.mpr ⟨hother, (ih hfound).2⟩⟩
  | own => cases hfound

/-- What is read from all members, one by one, is what they hold. -/
theorem fills_none_iff : shape.Fills none members value ↔ shape.Holds members value := by
  constructor
  · intro h
    generalize hstart : none = start at h
    induction h with
    | done found =>
        rw [← hstart]
        exact Holds.absent (List.forall_mem_nil _)
    | @other found member members value hother _ ih =>
        cases ih hstart with
        | absent hothers => exact Holds.absent (List.forall_mem_cons.mpr ⟨hother, hothers⟩)
        | present earlier hown hothers =>
            exact Holds.present (member :: earlier) hown
              (List.forall_mem_cons.mpr ⟨hother, hothers⟩)
    | own hown hrest =>
        rcases hrest.others with ⟨rfl, hothers⟩
        exact Holds.present [] hown hothers
  · intro h
    cases h with
    | absent hothers => exact fills_of_others none hothers
    | present earlier hown hothers =>
        rcases List.forall_mem_append.mp hothers with ⟨hearlier, hlater⟩
        exact fills_append hearlier (Fills.own hown (fills_of_others _ hlater))

/-- A shape and the reader of a record that belong together. -/
structure Describes (shape : Shape α) (record : Record α) : Prop where
  field : shape.field = record.field
  other : ∀ member, shape.Other member ↔ record.closed = false ∧ member.Foreign record.field
  missing : shape.missing = record.missing
  reads : Reads record.readField shape.Field

namespace Describes

variable {record : Record α} (h : shape.Describes record)

include h

theorem wellFormed_of_holds (hmembers : shape.Holds members value) :
    ∀ member ∈ members, member.WellFormed := by
  have hother : ∀ member, shape.Other member → member.WellFormed := fun member hother =>
    ((h.other member).mp hother).2.wellFormed
  cases hmembers with
  | absent hothers => exact fun member hmem => hother member (hothers member hmem)
  | @present earlier later own _ hown hothers =>
      have hwell : own.WellFormed := ⟨hown.spaced, hown.name.isContent, h.reads.isValue hown.field⟩
      rw [List.forall_mem_append] at hothers ⊢
      exact ⟨fun member hmem => hother member (hothers.1 member hmem),
        List.forall_mem_cons.mpr ⟨hwell, fun member hmem => hother member (hothers.2 member hmem)⟩⟩

-- By induction on the members that are left. Every round of the loop takes one of them.
theorem readMembers_fills {found : Option α} (hfills : shape.Fills found members value)
    (rest : List Char) :
    record.readMembers false found (behindCommas (members.map Member.text) ++ '}' :: rest) =
      .ok (value, rest) := by
  induction hfills with
  | done found =>
      rw [h.missing]
      exact record.readMembers_end false found blanks_nil rest
  | @other found member members value hother _ ih =>
      rcases (h.other member).mp hother with ⟨hopen, hforeign⟩
      have hends := ends_behindCommas (Or.inr rfl) (members.map Member.text) rest
      simp only [List.map_cons, behindCommas_cons, List.cons_append, List.append_assoc]
      rw [record.readMembers_other hopen found hforeign hends, ih]
  | @own member members value last hown _ ih =>
      have hends := ends_blanks_append hown.spaced.element.after
        (ends_behindCommas (Or.inr rfl) (members.map Member.text) rest)
      have hread := h.reads.takes hown.spaced.element.before hown.field hends
      rw [← Element.text_append] at hread
      simp only [List.map_cons, behindCommas_cons, List.cons_append, List.append_assoc]
      exact (record.readMembers_own hown.spaced (h.field ▸ hown.name) (.ok value) hread).trans ih

-- By induction on the rounds of the loop. What a round took is the first of the members that are
-- left, and the blanks behind it are those in front of the next one.
theorem exists_fills_of_readMembers {first : Bool} {found : Option α} {text rest : List Char}
    (hread : record.readMembers first found text = .ok (value, rest)) :
    ∃ gap members, Blanks gap ∧ shape.Fills found members value ∧
      text = laidOut first gap (members.map Member.text) ++ '}' :: rest := by
  fun_induction record.readMembers first found text with
  | case1 | case3 | case4 | case5 | case7 | case8 | case9 => cases hread
  | case2 first found text last hnext =>
      rcases Prod.mk.inj (Except.ok.inj hread) with ⟨rfl, rfl⟩
      rcases exists_blanks_of_nextName hnext with ⟨gap, hgap, rfl⟩
      exact ⟨gap, [], hgap, h.missing ▸ Shape.Fills.done found, rfl⟩
  | case6 first found text behind hnone named hcolon own after hfield hnext ih =>
      rcases exists_spells_of_nextName hnext with
        ⟨gap, before, content, hgap, hbefore, hname, rfl⟩
      rcases exists_blanks_of_skipColon hcolon with ⟨between, hbetween, rfl⟩
      rcases h.reads.only hfield with ⟨inner, written, hinner, hwritten, rfl⟩
      rcases ih hread with ⟨last, members, hlast, hfills, rfl⟩
      let member : Member := ⟨before, content, between, ⟨inner, written, last⟩⟩
      have hown : shape.Own own member :=
        ⟨⟨hbefore, hbetween, ⟨hinner, hlast⟩⟩, h.field ▸ hname, hwritten⟩
      cases found with
      | none => exact ⟨gap, member :: members, hgap, Fills.own hown hfills,
          laidOut_cons first gap member _ _⟩
      | some found => exact absurd rfl hnone
  | case10 first found text name behind hnext hne hopen named hcolon after hskip ih =>
      rcases exists_spells_of_nextName hnext with
        ⟨gap, before, content, hgap, hbefore, hname, rfl⟩
      rcases exists_blanks_of_skipColon hcolon with ⟨between, hbetween, rfl⟩
      rcases exists_isValue_of_skipValue hskip with ⟨inner, written, hinner, hwritten, rfl⟩
      rcases ih hread with ⟨last, members, hlast, hfills, rfl⟩
      let member : Member := ⟨before, content, between, ⟨inner, written, last⟩⟩
      have hforeign : member.Foreign record.field :=
        ⟨⟨hbefore, hbetween, ⟨hinner, hlast⟩⟩, ⟨_, hname, hne⟩, hwritten⟩
      have hother := (h.other member).mpr ⟨eq_false_of_ne_true hopen, hforeign⟩
      exact ⟨gap, member :: members, hgap, Fills.other hother hfills,
        laidOut_cons first gap member _ _⟩

theorem isValue_of_written {text : List Char} (hwritten : shape.Written value text) :
    IsValue text := by
  cases hwritten with
  | object hgap hmembers => exact isValue_objectText hgap (h.wellFormed_of_holds hmembers)
  | nothing hgap => exact IsValue.array hgap (List.forall_mem_nil _) (List.forall_mem_nil _)
  | alone hspaced hfield =>
      refine IsValue.array blanks_nil ?_ ?_
      · exact List.forall_mem_singleton.mpr hspaced
      · exact List.forall_mem_singleton.mpr (h.reads.isValue hfield)

theorem readElements_alone {element : Element} (hspaced : element.Spaced)
    (hfield : shape.Field value element.value) (rest : List Char) :
    record.readElements (element.text ++ ']' :: rest) = .ok (value, rest) := by
  have hends := ends_blanks_append hspaced.after (ends_cons (Or.inr (Or.inl rfl)) rest)
  have hread := h.reads.takes blanks_nil hfield hends
  exact record.readElements_append hspaced (h.reads.isValue hfield) (.ok value) hread

theorem exists_element_of_readElements {text rest : List Char}
    (hread : record.readElements text = .ok (value, rest)) :
    (value = shape.missing ∧ ∃ gap, Blanks gap ∧ text = gap ++ ']' :: rest) ∨
      ∃ element : Element, element.Spaced ∧ shape.Field value element.value ∧
        text = element.text ++ ']' :: rest := by
  unfold Record.readElements at hread
  split at hread
  · cases hread
  next c others hblanks =>
    rcases exists_blanks_of_skipBlanks hblanks with ⟨gap, hgap, rfl⟩
    split at hread
    next hclose =>
      rcases Prod.mk.inj (Except.ok.inj hread) with ⟨rfl, rfl⟩
      exact Or.inl ⟨h.missing.symm, gap, hgap, by rw [hclose]⟩
    · split at hread
      · cases hread
      next found after hfield =>
        rcases h.reads.only hfield with ⟨inner, written, hinner, hwritten, htext⟩
        split at hread
        · cases hread
        next d last hafter =>
          rcases exists_blanks_of_skipBlanks hafter with ⟨gap', hgap', rfl⟩
          split at hread
          next hclose =>
            rcases Prod.mk.inj (Except.ok.inj hread) with ⟨rfl, rfl⟩
            refine Or.inr ⟨⟨gap ++ inner, written, gap'⟩, ⟨blanks_append hgap hinner, hgap'⟩,
              hwritten, ?_⟩
            rw [htext, hclose]
            simp only [Element.text, List.append_assoc]
          · cases hread

/-- The reader of a record takes the texts of its shape. -/
theorem reads_written : Reads record.read shape.Written where
  isValue := h.isValue_of_written
  takes := by
    intro before text rest value hbefore hwritten hrest
    cases hwritten with
    | object hgap hmembers =>
        have hwell := h.wellFormed_of_holds hmembers
        rw [record.read_objectText hbefore hgap fun member hmem => (hwell member hmem).spaced]
        exact h.readMembers_fills (fills_none_iff.mpr hmembers) rest
    | nothing hgap =>
        rw [record.read_arrayText hbefore, List.map_nil, inside, Record.readElements,
          skipBlanks_append_cons hgap (by decide), h.missing]
        exact if_pos rfl
    | alone hspaced hfield =>
        rw [record.read_arrayText hbefore, List.map_cons, List.map_nil, inside_singleton,
          h.readElements_alone hspaced hfield]
  only := by
    intro text rest value hread
    unfold Record.read at hread
    split at hread
    · cases hread
    next c others hblanks =>
      rcases exists_blanks_of_skipBlanks hblanks with ⟨gap, hgap, rfl⟩
      split at hread
      next hopen =>
        rcases h.exists_element_of_readElements hread with
          ⟨rfl, inner, hinner, rfl⟩ | ⟨element, hspaced, hfield, rfl⟩
        · refine ⟨gap, _, hgap, Written.nothing hinner, ?_⟩
          rw [hopen, arrayText_append, List.map_nil, inside]
        · refine ⟨gap, _, hgap, Written.alone hspaced hfield, ?_⟩
          rw [hopen, arrayText_append, List.map_cons, List.map_nil, inside_singleton]
      · split at hread
        next hopen =>
          rcases h.exists_fills_of_readMembers hread with ⟨inner, members, hinner, hfills, rfl⟩
          refine ⟨gap, _, hgap, Written.object hinner (fills_none_iff.mp hfills), ?_⟩
          rw [hopen, objectText_append, laidOut_true]
        · cases hread

end Describes

end Shape

/-- What is read to its end is a text of the grammar between blanks. -/
theorem Reads.complete_eq_ok_iff {reader : List Char → Except Fault (α × List Char)}
    {Written : α → List Char → Prop} (h : Reads reader Written) {text : String} {value : α} :
    complete reader text = .ok value ↔
      ∃ element : Element, element.Spaced ∧ Written value element.value ∧
        text.toList = element.text := by
  constructor
  · intro hread
    unfold complete at hread
    split at hread
    · cases hread
    next hreader =>
      split at hread
      next hempty =>
        rcases h.only hreader with ⟨before, written, hbefore, hwritten, htext⟩
        rcases exists_blanks_of_skipBlanks (List.isEmpty_iff.mp hempty) with ⟨gap, hgap, rfl⟩
        rw [List.append_nil] at htext
        exact ⟨⟨before, written, gap⟩, ⟨hbefore, hgap⟩, Except.ok.inj hread ▸ hwritten, htext⟩
      · cases hread
  · rintro ⟨element, hspaced, hwritten, htext⟩
    rw [complete, htext, Element.text,
      h.takes hspaced.before hwritten (ends_of_blanks hspaced.after)]
    simp only [skipBlanks_of_blanks hspaced.after, List.isEmpty_nil, if_true]

end TreeQuery.Json
