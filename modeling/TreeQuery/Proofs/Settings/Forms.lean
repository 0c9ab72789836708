import TreeQuery.Proofs.Json.Forms
import TreeQuery.Proofs.Settings.Foreign

/-!
# Arrays and objects in project files

A project file may be an array whose element is the section, or an object that has the section
as a member. The section in turn may be an array whose element is the level, or an object that
has the level as its member. These are the two forms of a record, once for the file and once for
the section, so it makes no difference which of them is chosen.

That holds for contents of every sort. If there is something wrong with the section or with the
level, it is found in both forms, and the same is said about it.

## Theorems

* `Settings.ofText_of_section`: A file that consists of a section makes what the section makes.
* `Settings.section_of_level`: A section that consists of a level makes what the level makes.
* `Settings.ofText_fill_congr`: Sections that yield the same make the same of a file.
* `Settings.forms_agree`: The form of a file and the form of a section make no difference.
-/

namespace TreeQuery.Settings

open Json

variable {text : String}

theorem spells_logLevel : Spells "logLevel".toList "logLevel".toList :=
  spells_of_plain (by decide)

theorem spells_transpiler : Spells "transpiler".toList "transpiler".toList :=
  spells_of_plain (by decide)

/-- A file that consists of a section makes what the section makes, in either form. -/
theorem ofText_of_section (h : IsText text) :
    Settings.ofText (asArray text) = (complete sectionRecord.read text).map Settings.mk ∧
      Settings.ofText (asObject "transpiler" text) =
        (complete sectionRecord.read text).map Settings.mk := by
  have harray := fileRecord.complete_asArray h decided_section
  have hobject := fileRecord.complete_asObject spells_transpiler h decided_section
  exact ⟨congrArg _ harray, congrArg _ hobject⟩

/-- A section that consists of a level makes what the level makes, in either form. -/
theorem section_of_level (h : IsText text) :
    complete sectionRecord.read (asArray text) = levelOfText text ∧
      complete sectionRecord.read (asObject "logLevel" text) = levelOfText text :=
  ⟨sectionRecord.complete_asArray h decided_readLevel,
    sectionRecord.complete_asObject spells_logLevel h decided_readLevel⟩

/-- Of a section only what is made of it matters, whatever stands around it in the file. -/
theorem ofText_fill_congr {frame : Frame} (hframe : frame.Fits "transpiler")
    {value other : List Char} (hvalue : IsValue value) (hother : IsValue other)
    (hsame : complete sectionRecord.read (String.ofList value) =
      complete sectionRecord.read (String.ofList other))
    {before : List Char} (hbefore : Blanks before) (after : List Char) :
    Settings.ofText (String.ofList (before ++ (frame.fill value ++ after))) =
      Settings.ofText (String.ofList (before ++ (frame.fill other ++ after))) := by
  rcases (decided_section hvalue).exists_yields with ⟨outcome, hyields⟩
  rcases (decided_section hother).exists_yields with ⟨found, hfound⟩
  rw [hyields.complete_of_toList String.toList_ofList,
    hfound.complete_of_toList String.toList_ofList] at hsame
  subst hsame
  rw [ofText, ofText, complete, complete, String.toList_ofList, String.toList_ofList,
    fileRecord.read_fill_congr decided_section hframe hvalue hother hyields hfound hbefore]

/-- For any text that holds a value, the file that consists of it as its section may be written in
    either form. So may the section that consists of it as its level, both in a file of its own
    and inside any other file, with members for other tools and faults of its own. What is made
    is the same, and so is the fault if nothing can be made. -/
theorem forms_agree (h : IsText text) :
    (Settings.ofText (asArray text) = Settings.ofText (asObject "transpiler" text) ∧
      Settings.ofText (asArray text) = (complete sectionRecord.read text).map Settings.mk) ∧
    (∀ inner ∈ [asArray text, asObject "logLevel" text],
      complete sectionRecord.read inner = levelOfText text ∧
      Settings.ofText (asArray inner) = (levelOfText text).map Settings.mk ∧
      Settings.ofText (asObject "transpiler" inner) = (levelOfText text).map Settings.mk) ∧
    ∀ frame : Frame, frame.Fits "transpiler" → ∀ before after, Blanks before →
      Settings.ofText (String.ofList (before ++ (frame.fill (asArray text).toList ++ after))) =
        Settings.ofText
          (String.ofList (before ++ (frame.fill (asObject "logLevel" text).toList ++ after))) := by
  rcases ofText_of_section h with ⟨harray, hobject⟩
  rcases section_of_level h with ⟨hinnerArray, hinnerObject⟩
  have hvalueArray := isValue_asArray h
  have hvalueObject := isValue_asObject spells_logLevel.isContent h
  refine ⟨⟨harray.trans hobject.symm, harray⟩, ?_, fun frame hframe before after hbefore => ?_⟩
  · have hinner : ∀ inner, IsText inner → complete sectionRecord.read inner = levelOfText text →
        complete sectionRecord.read inner = levelOfText text ∧
        Settings.ofText (asArray inner) = (levelOfText text).map Settings.mk ∧
        Settings.ofText (asObject "transpiler" inner) = (levelOfText text).map Settings.mk := by
      intro inner htext hlevel
      rw [← hlevel]
      exact ⟨rfl, ofText_of_section htext⟩
    refine List.forall_mem_cons.mpr ⟨hinner _ (isText_of_isValue hvalueArray) hinnerArray, ?_⟩
    exact List.forall_mem_singleton.mpr
      (hinner _ (isText_of_isValue hvalueObject) hinnerObject)
  · refine ofText_fill_congr hframe hvalueArray hvalueObject ?_ hbefore after
    rw [String.ofList_toList, String.ofList_toList, hinnerArray, hinnerObject]

/-- An object that names a level but holds something else than null. As a section it is refused for
    its name, and as a level for what it holds. -/
theorem forms_agree_faulty :
    Settings.ofText "[\x7b\"debug\":true\x7d]" =
        Settings.ofText "\x7b\"transpiler\":\x7b\"debug\":true\x7d\x7d" ∧
      Settings.ofText "\x7b\"transpiler\":[\x7b\"debug\":true\x7d]\x7d" =
        .error (.mismatch (.wrongType (.boolean true) "unit")) ∧
      Settings.ofText "[\x7b\"logLevel\":\x7b\"debug\":true\x7d\x7d]" =
        .error (.mismatch (.wrongType (.boolean true) "unit")) ∧
      Settings.ofText "[[\x7b\"debug\":true\x7d],null]" =
        Settings.ofText "[\x7b\"logLevel\":\x7b\"debug\":true\x7d\x7d,null]" := by
  have hmember : (Member.tight "debug" trueWord).WellFormed :=
    ⟨Member.spaced_tight .., (spells_of_plain (by decide)).isContent, IsValue.yes⟩
  have hobject : IsValue (objectText [] [.tight "debug" trueWord]) :=
    isValue_objectText blanks_nil (List.forall_mem_singleton.mpr hmember)
  have htext : IsText "\x7b\"debug\":true\x7d" := isText_of_isValue hobject
  have hlevel : levelOfText "\x7b\"debug\":true\x7d" =
      .error (.mismatch (.wrongType (.boolean true) "unit")) := by cbv
  have hframe : (Frame.array [] [] [⟨[], nullWord, []⟩]).Fits "transpiler" :=
    Frame.Fits.array blanks_nil blanks_nil
  rcases forms_agree htext with ⟨⟨hforms, _⟩, hinner, hfill⟩
  rw [hlevel] at hinner
  rcases List.forall_mem_cons.mp hinner with ⟨⟨_, _, harray⟩, hrest⟩
  rcases List.forall_mem_singleton.mp hrest with ⟨_, hobject, _⟩
  exact ⟨hforms, harray, hobject, hfill _ hframe [] [] blanks_nil⟩

end TreeQuery.Settings
