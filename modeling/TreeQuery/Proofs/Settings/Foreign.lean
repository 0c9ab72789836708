import TreeQuery.Proofs.Json.Decided
import TreeQuery.Proofs.Settings.Accepted

/-!
# Members for other tools

A project file holds the settings of many tools. What the others write there may not make
a difference, neither to settings that are made nor to a complaint about a file that makes
none.

One member can be put between the others at any place, so the reader is compared with
itself on two texts. In front of the member both runs are the same, because what each of
the earlier members does is decided by that member. The member itself is skipped, as a
whole and without a trace. Behind it both runs have the same text left and have found the
same.

## Theorems

* `Settings.decided_readLevel`, `Settings.decided_section`: A value decides what the readers
  of a level and of the section make of it.
* `Settings.ofText_insert_foreign`: A member for another tool makes no difference.
-/

namespace TreeQuery.Settings

open Json

theorem readNull_or_fault {value : List Char} (h : IsValue value) :
    value = nullWord ∨ ∃ fault, ∀ before rest, Blanks before → Ends rest →
      readNull (before ++ (value ++ rest)) = .error fault := by
  rcases exists_unexpected h "unit" with ⟨fault, hfault⟩
  -- Any value that does not begin like null is of another sort.
  have hother {c : Char} {tail : List Char} (hvalue : value = c :: tail)
      (hblank : isBlank c = false) (hc : c ≠ 'n') :
      ∃ fault, ∀ before rest, Blanks before → Ends rest →
        readNull (before ++ (value ++ rest)) = .error fault := by
    refine ⟨fault, fun before rest hbefore hrest => ?_⟩
    have hfault := hfault rest hrest
    rw [hvalue, List.cons_append] at hfault ⊢
    rw [readNull, skipBlanks_append_cons hbefore hblank]
    simp only [if_neg hc, hfault]
  cases h with
  | null => exact Or.inl rfl
  | yes | no | text | array | object => exact Or.inr (hother rfl rfl (by decide))
  | number hnumber =>
      rcases hnumber.exists_cons with ⟨c, tail, hvalue, hc⟩
      exact Or.inr (hother hvalue (not_isBlank_of_opensNumber hc) (ne_of_opensNumber hc rfl))

theorem exists_outcome_of_levelName {content : List Char} (h : IsContent content) :
    ∃ outcome : Except Fault Level, ∀ before rest, Blanks before →
      readLevelName (before ++ '"' :: (content ++ '"' :: rest)) =
        outcome.map fun level => (level, rest) := by
  rcases exists_name_or_malformed h with ⟨name, hname⟩ | hmalformed
  · refine ⟨Level.ofKey name, fun before rest hbefore => ?_⟩
    rw [readLevelName, skipBlanks_append_cons hbefore (by decide)]
    simp only [if_true, readText_append hname]
    cases Level.ofKey name <;> rfl
  · refine ⟨.error .malformed, fun before rest hbefore => ?_⟩
    rw [readLevelName, skipBlanks_append_cons hbefore (by decide)]
    simp only [if_true, hmalformed]
    rfl

-- The only member is read, and behind it the object has to end.
theorem exists_outcome_of_levelMember {member : Member} (h : member.WellFormed)
    (others : List Member) :
    ∃ outcome : Except Fault Level, ∀ rest,
      readLevelMember (member.text ++ (behindCommas (others.map Member.text) ++ '}' :: rest)) =
        outcome.map fun level => (level, rest) := by
  rcases exists_outcome_of_levelName h.name with ⟨named, hnamed⟩
  have hnamed rest := hnamed member.before rest h.spaced.before
  cases named with
  | error fault =>
      refine ⟨.error fault, fun rest => ?_⟩
      rw [Member.text_append, readLevelMember, hnamed]
      rfl
  | ok level =>
      simp only [Member.text_append, Element.text_append, readLevelMember, hnamed, Except.map,
        skipColon_append h.spaced.after]
      rcases readNull_or_fault h.value with hnull | ⟨fault, hfault⟩
      · simp only [hnull, readNull_append h.spaced.element.before]
        cases others with
        | nil =>
            refine ⟨.ok level, fun rest => ?_⟩
            rw [List.map_nil, behindCommas_nil, List.nil_append,
              skipBlanks_append_cons h.spaced.element.after (by decide)]
            exact if_pos rfl
        | cons other others =>
            refine ⟨.error .malformed, fun rest => ?_⟩
            rw [List.map_cons, behindCommas_cons, List.cons_append,
              skipBlanks_append_cons h.spaced.element.after (by decide)]
            exact if_neg (by decide)
      · refine ⟨.error fault, fun rest => ?_⟩
        have hends := ends_blanks_append h.spaced.element.after
          (ends_behindCommas (Or.inr rfl) (others.map Member.text) rest)
        rw [hfault _ _ h.spaced.element.before hends]

theorem decided_readLevel_objectText {gap : List Char} {members : List Member} (hgap : Blanks gap)
    (hwell : ∀ member ∈ members, member.WellFormed) :
    Decided readLevel (objectText gap members) := by
  have hread before rest (hbefore : Blanks before) :
      readLevel (before ++ (objectText gap members ++ rest)) =
        readLevelMember (inside gap (members.map Member.text) ++ '}' :: rest) := by
    rw [objectText_append, readLevel, skipBlanks_append_cons hbefore (by decide)]
    exact (if_neg (by decide)).trans (if_pos rfl)
  cases members with
  | nil =>
      refine ⟨.error .malformed, fun before rest hbefore _ => ?_⟩
      rw [hread before rest hbefore, List.map_nil, inside, readLevelMember, readLevelName,
        skipBlanks_append_cons hgap (by decide)]
      rfl
  | cons member others =>
      rcases exists_outcome_of_levelMember (hwell member List.mem_cons_self) others with
        ⟨outcome, houtcome⟩
      refine ⟨outcome, fun before rest hbefore _ => ?_⟩
      rw [hread before rest hbefore, List.map_cons, inside, List.append_assoc, houtcome]

/-- A value decides what the reader of a level makes of it. -/
theorem decided_readLevel {value : List Char} (h : IsValue value) : Decided readLevel value := by
  -- Any other value than a string or an object is refused.
  have hother {c : Char} {tail : List Char} (hvalue : value = c :: tail)
      (hblank : isBlank c = false) (htext : c ≠ '"') (hobject : c ≠ '{') :
      Decided readLevel value := by
    refine ⟨.error .malformed, fun before rest hbefore _ => ?_⟩
    rw [hvalue, List.cons_append, readLevel, skipBlanks_append_cons hbefore hblank]
    simp only [if_neg htext, if_neg hobject]
    rfl
  cases h with
  | null | yes | no | array => exact hother rfl rfl (by decide) (by decide)
  | number hnumber =>
      rcases hnumber.exists_cons with ⟨c, tail, hvalue, hc⟩
      exact hother hvalue (not_isBlank_of_opensNumber hc) (ne_of_opensNumber hc rfl)
        (ne_of_opensNumber hc rfl)
  | text hcontent =>
      rcases exists_outcome_of_levelName hcontent with ⟨outcome, houtcome⟩
      refine ⟨outcome, fun before rest hbefore _ => ?_⟩
      rw [quoted_append, readLevel, skipBlanks_append_cons hbefore (by decide)]
      exact (if_pos rfl).trans (houtcome [] rest blanks_nil)
  | object hgap hspaced hnames hvalues =>
      exact decided_readLevel_objectText hgap fun member hmem =>
        ⟨hspaced member hmem, hnames member hmem, hvalues member hmem⟩

/-- A value decides what the reader of the section makes of it. -/
theorem decided_section {value : List Char} (h : IsValue value) :
    Decided sectionRecord.read value :=
  sectionRecord.decided_read decided_readLevel h

/-- A member for another tool makes no difference to what a project file makes, nor to what is said
    about a file that makes nothing. It may stand anywhere between the other members. -/
theorem ofText_insert_foreign {before gap : List Char} {earlier later : List Member}
    {foreign : Member} (hbefore : Blanks before) (hgap : Blanks gap)
    (hmembers : ∀ member ∈ earlier ++ later, member.WellFormed)
    (hforeign : foreign.Foreign "transpiler") (after : List Char) :
    Settings.ofText
        (String.ofList (before ++ (objectText gap (earlier ++ foreign :: later) ++ after))) =
      Settings.ofText (String.ofList (before ++ (objectText gap (earlier ++ later) ++ after))) := by
  rcases List.forall_mem_append.mp hmembers with ⟨hearlier, hlater⟩
  have hspaced : ∀ member ∈ earlier ++ foreign :: later, member.Spaced := by
    refine List.forall_mem_append.mpr ⟨fun member hmem => (hearlier member hmem).spaced, ?_⟩
    exact List.forall_mem_cons.mpr ⟨hforeign.spaced, fun member hmem => (hlater member hmem).spaced⟩
  rw [ofText, ofText, complete, complete, String.toList_ofList, String.toList_ofList,
    fileRecord.read_objectText hbefore hgap hspaced,
    fileRecord.read_objectText hbefore hgap fun member hmem => (hmembers member hmem).spaced,
    fileRecord.readMembers_insert rfl decided_section hearlier hforeign]

-- The section is there twice, and the member stands between the two.
theorem ofText_insert_foreign_between :
    Settings.ofText "\x7b\"transpiler\":[],\"strict\":[null],\"transpiler\":true\x7d" =
      Settings.ofText "\x7b\"transpiler\":[],\"transpiler\":true\x7d" := by
  have harray : IsValue (arrayText [] [⟨[], nullWord, []⟩]) :=
    IsValue.array blanks_nil (List.forall_mem_singleton.mpr ⟨blanks_nil, blanks_nil⟩)
      (List.forall_mem_singleton.mpr IsValue.null)
  have hnothing : IsValue (arrayText [] []) :=
    IsValue.array blanks_nil (List.forall_mem_nil _) (List.forall_mem_nil _)
  have hforeign : Member.Foreign "transpiler" (.tight "strict" _) :=
    ⟨Member.spaced_tight .., ⟨"strict", spells_of_plain (by decide), by decide⟩, harray⟩
  have hname : Spells "transpiler".toList "transpiler".toList := spells_of_plain (by decide)
  have hsection {value : List Char} (hvalue : IsValue value) :
      (Member.tight "transpiler" value).WellFormed :=
    ⟨Member.spaced_tight .., hname.isContent, hvalue⟩
  have hmembers : ∀ member ∈ ([_] ++ [_] : List Member), member.WellFormed :=
    List.forall_mem_cons.mpr ⟨hsection hnothing,
      List.forall_mem_singleton.mpr (hsection IsValue.yes)⟩
  exact ofText_insert_foreign blanks_nil blanks_nil hmembers hforeign []

end TreeQuery.Settings
