import TreeQuery.Proofs.Json.Record
import TreeQuery.Settings.Basic

/-!
# Which project files are accepted

A project file makes settings if it is one value of a certain form, with blanks around it.
The form is put together in three layers: the file is a record with the section in it, the
section is a record with the level in it, and the level is a string or an object with one
member. The two records differ in one thing. Next to the section there may be members of
any kind, and next to the level there may be none.

What is accepted also says what is made of it. The level of the settings is the one that is
written, and it is the level of warnings where one of the records is without its field.

## Main definitions

* `Settings.LevelText`: The texts of a level.
* `Settings.sectionShape`, `Settings.fileShape`: The section and the file, as they are
  written.

## Theorems

* `Settings.reads_levelText`: The reader of a level takes the texts of a level.
* `Settings.ofText_eq_ok_iff_written`: The project files that make settings, and which.
-/

namespace TreeQuery

open Json

theorem Level.ofKey_eq_ok_iff {name : String} {level : Level} :
    Level.ofKey name = .ok level ↔ name = level.key := by
  constructor
  · intro h
    unfold ofKey at h
    split at h
    next found hfound =>
      have hkey := List.find?_some hfound
      rw [← Except.ok.inj h]
      exact (beq_iff_eq.mp hkey).symm
    · cases h
  · rintro rfl
    cases level <;> rfl

namespace Settings

/-- The texts of a level: its name between quotes, or an object that has one member, with that name
    and null. -/
inductive LevelText : Level → List Char → Prop
  | name {level : Level} {content : List Char} (hname : Spells content level.key.toList) :
      LevelText level ('"' :: (content ++ ['"']))
  | member {level : Level} {member : Member} (hspaced : member.Spaced)
      (hname : Spells member.name level.key.toList) (hnull : member.element.value = nullWord) :
      LevelText level (objectText [] [member])

/-- The section: at most a level, and nothing next to it. -/
def sectionShape : Shape Level where
  field := "logLevel"
  Other _ := False
  missing := .warn
  Field := LevelText

/-- The project file: at most a section, and next to it members that other tools may read. -/
def fileShape : Shape Level where
  field := "transpiler"
  Other := Member.Foreign "transpiler"
  missing := .warn
  Field := sectionShape.Written

theorem readNull_append {before : List Char} (hbefore : Blanks before) (rest : List Char) :
    readNull (before ++ (nullWord ++ rest)) = .ok rest := by
  rw [readNull, nullWord, List.cons_append, skipBlanks_append_cons hbefore (by decide)]
  exact (if_pos rfl).trans (skipWord_eq_ok_iff.mpr rfl)

theorem exists_blanks_of_readNull {text rest : List Char} (h : readNull text = .ok rest) :
    ∃ before, Blanks before ∧ text = before ++ (nullWord ++ rest) := by
  unfold readNull at h
  split at h
  · cases h
  next hblanks =>
    split at h
    next hletter =>
      rcases exists_blanks_of_skipBlanks hblanks with ⟨before, hbefore, rfl⟩
      rw [hletter, skipWord_eq_ok_iff.mp h]
      exact ⟨before, hbefore, rfl⟩
    · cases h

theorem readLevelName_append {before content : List Char} {level : Level} (hbefore : Blanks before)
    (hname : Spells content level.key.toList) (rest : List Char) :
    readLevelName (before ++ '"' :: (content ++ '"' :: rest)) = .ok (level, rest) := by
  rw [readLevelName, skipBlanks_append_cons hbefore (by decide)]
  simp only [if_true, readText_append hname, Level.ofKey_eq_ok_iff.mpr rfl]

theorem exists_spells_of_readLevelName {text rest : List Char} {level : Level}
    (h : readLevelName text = .ok (level, rest)) :
    ∃ before content, Blanks before ∧ Spells content level.key.toList ∧
      text = before ++ '"' :: (content ++ '"' :: rest) := by
  unfold readLevelName at h
  split at h
  · cases h
  next hblanks =>
    rcases exists_blanks_of_skipBlanks hblanks with ⟨before, hbefore, rfl⟩
    split at h
    next hquote =>
      split at h
      · cases h
      next hread =>
        split at h
        · cases h
        next hkey =>
          rcases Prod.mk.inj (Except.ok.inj h) with ⟨rfl, rfl⟩
          rcases exists_spells_of_readText hread with ⟨content, hname, rfl⟩
          rw [hquote]
          exact ⟨before, content, hbefore, Level.ofKey_eq_ok_iff.mp hkey ▸ hname, rfl⟩
    · cases h

theorem readLevelMember_append {member : Member} {level : Level} (hspaced : member.Spaced)
    (hname : Spells member.name level.key.toList) (hnull : member.element.value = nullWord)
    (rest : List Char) : readLevelMember (member.text ++ '}' :: rest) = .ok (level, rest) := by
  simp only [Member.text_append, Element.text_append, hnull, readLevelMember,
    readLevelName_append hspaced.before hname, skipColon_append hspaced.after,
    readNull_append hspaced.element.before,
    skipBlanks_append_cons hspaced.element.after (show isBlank '}' = false from rfl), if_true]

theorem exists_member_of_readLevelMember {text rest : List Char} {level : Level}
    (h : readLevelMember text = .ok (level, rest)) :
    ∃ member : Member, member.Spaced ∧ Spells member.name level.key.toList ∧
      member.element.value = nullWord ∧ text = member.text ++ '}' :: rest := by
  unfold readLevelMember at h
  split at h
  · cases h
  next hread =>
    rcases exists_spells_of_readLevelName hread with ⟨before, content, hbefore, hname, rfl⟩
    split at h
    · cases h
    next hcolon =>
      rcases exists_blanks_of_skipColon hcolon with ⟨between, hbetween, rfl⟩
      split at h
      · cases h
      next hnull =>
        rcases exists_blanks_of_readNull hnull with ⟨inner, hinner, rfl⟩
        split at h
        · cases h
        next hblanks =>
          rcases exists_blanks_of_skipBlanks hblanks with ⟨last, hlast, rfl⟩
          split at h
          next hclose =>
            rcases Prod.mk.inj (Except.ok.inj h) with ⟨rfl, rfl⟩
            refine ⟨⟨before, content, between, ⟨inner, nullWord, last⟩⟩,
              ⟨hbefore, hbetween, ⟨hinner, hlast⟩⟩, hname, rfl, ?_⟩
            rw [hclose]
            rw [Member.text_append, Element.text_append]
          · cases h

theorem LevelText.isValue {level : Level} {text : List Char} (h : LevelText level text) :
    IsValue text := by
  cases h with
  | name hname => exact IsValue.text hname.isContent
  | member hspaced hname hnull =>
      refine isValue_objectText blanks_nil (List.forall_mem_singleton.mpr ?_)
      exact ⟨hspaced, hname.isContent, hnull ▸ IsValue.null⟩

/-- The reader of a level takes the texts of a level. -/
theorem reads_levelText : Reads readLevel LevelText where
  isValue := LevelText.isValue
  takes := by
    intro before text rest level hbefore hwritten _
    cases hwritten with
    | name hname =>
        rw [quoted_append, readLevel, skipBlanks_append_cons hbefore (by decide)]
        exact (if_pos rfl).trans (readLevelName_append blanks_nil hname rest)
    | member hspaced hname hnull =>
        rw [objectText_append, List.map_cons, List.map_nil, inside_singleton, readLevel,
          skipBlanks_append_cons hbefore (by decide)]
        simp only [if_neg (show '{' ≠ '"' by decide), if_true,
          readLevelMember_append hspaced hname hnull]
  only := by
    intro text rest level hread
    unfold readLevel at hread
    split at hread
    · cases hread
    next hblanks =>
      rcases exists_blanks_of_skipBlanks hblanks with ⟨gap, hgap, rfl⟩
      split at hread
      next hquote =>
        rcases exists_spells_of_readLevelName hread with ⟨before, content, hbefore, hname, htext⟩
        refine ⟨gap ++ before, _, blanks_append hgap hbefore, LevelText.name hname, ?_⟩
        rw [htext, quoted_append, List.append_assoc]
      · split at hread
        next hopen =>
          rcases exists_member_of_readLevelMember hread with ⟨member, hspaced, hname, hnull, rfl⟩
          refine ⟨gap, _, hgap, LevelText.member hspaced hname hnull, ?_⟩
          rw [hopen, objectText_append, List.map_cons, List.map_nil, inside_singleton]
        · cases hread

theorem describes_section : sectionShape.Describes sectionRecord where
  field := rfl
  other _ := ⟨False.elim, fun h => nomatch h.1⟩
  missing := rfl
  reads := reads_levelText

theorem describes_file : fileShape.Describes fileRecord where
  field := rfl
  other _ := ⟨fun h => ⟨rfl, h⟩, fun h => h.2⟩
  missing := rfl
  reads := describes_section.reads_written

/-- A project file makes settings exactly if it is one value of the form of a project file, between
    blanks. The level is the one that is written there. -/
theorem ofText_eq_ok_iff_written (text : String) (settings : Settings) :
    Settings.ofText text = .ok settings ↔
      ∃ element : Element, element.Spaced ∧ IsValue element.value ∧
        fileShape.Written settings.level element.value ∧ text.toList = element.text := by
  have hread := describes_file.reads_written
  have hlevel : Settings.ofText text = .ok settings ↔
      complete fileRecord.read text = .ok settings.level := by
    rw [ofText]
    cases complete fileRecord.read text with
    | error fault => exact ⟨(nomatch ·), (nomatch ·)⟩
    | ok level => exact ⟨fun h => by rw [← Except.ok.inj h], fun h => by rw [Except.ok.inj h]; rfl⟩
  rw [hlevel, hread.complete_eq_ok_iff]
  constructor
  · rintro ⟨element, hspaced, hwritten, htext⟩
    exact ⟨element, hspaced, hread.isValue hwritten, hwritten, htext⟩
  · rintro ⟨element, hspaced, _, hwritten, htext⟩
    exact ⟨element, hspaced, hwritten, htext⟩

end Settings

end TreeQuery
