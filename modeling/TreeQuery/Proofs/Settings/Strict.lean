import TreeQuery.Proofs.Settings.Accepted

/-!
# Unknown members of the section

The section has one member, and the name of any other one is refused. It is refused as soon
as it has been read: neither its value nor anything else that follows is looked at, so the
complaint is about the name even if the text is broken off right behind it.

A file that has come so far is described by its beginning. It ends behind the bracket that
opens the section, and in the section there may be a level in front of the member that
nobody knows. From there on the text may be anything.

## Main definitions

* `beforeCommas`: Texts one behind the other, each in front of a comma.
* `Settings.EntersSection`: The beginnings of files, up to the bracket that opens the section.
* `Settings.AwaitsMember`: What may stand in the section in front of another member.

## Theorems

* `Record.readMembers_beforeCommas`: Members with other names are passed.
* `Settings.read_of_entersSection`: What is wrong inside the section is wrong with the file.
* `Settings.unknown_member_refused`: The name of an unknown member ends the reading.
-/

namespace TreeQuery

namespace Json

/-- Texts one behind the other, each in front of a comma. -/
def beforeCommas (parts : List (List Char)) : List Char :=
  parts.flatMap fun part => part ++ [',']

theorem beforeCommas_cons_append (part : List Char) (others : List (List Char))
    (text : List Char) :
    beforeCommas (part :: others) ++ text = part ++ ',' :: (beforeCommas others ++ text) := by
  simp only [beforeCommas, List.flatMap_cons, List.append_assoc, List.cons_append, List.nil_append]

namespace Record

variable {α : Type} (record : Record α)

theorem readMembers_member (found : Option α) {member : Member} (hspaced : member.Spaced)
    (rest : List Char) : record.readMembers true found (member.text ++ rest) =
      record.readMembers false found (',' :: (member.text ++ rest)) := by
  rw [Member.text_append, record.readMembers_first found hspaced.before]

/-- Members with other names are passed, and the next name is read as if they were not there. -/
theorem readMembers_beforeCommas (hopen : record.closed = false) (found : Option α)
    {others : List Member} (hothers : ∀ member ∈ others, member.Foreign record.field)
    {before : List Char} (hbefore : Blanks before) (text : List Char) :
    record.readMembers true found
        (beforeCommas (others.map Member.text) ++ (before ++ '"' :: text)) =
      record.readMembers false found (',' :: (before ++ '"' :: text)) := by
  have hpassed (others : List Member) (h : ∀ member ∈ others, member.Foreign record.field) :
      record.readMembers false found
          (',' :: (beforeCommas (others.map Member.text) ++ (before ++ '"' :: text))) =
        record.readMembers false found (',' :: (before ++ '"' :: text)) := by
    induction others with
    | nil => rfl
    | cons member others ih =>
        rcases List.forall_mem_cons.mp h with ⟨hforeign, hothers⟩
        rw [List.map_cons, beforeCommas_cons_append,
          record.readMembers_other hopen found hforeign (ends_cons (Or.inl rfl) _), ih hothers]
  cases others with
  | nil => exact record.readMembers_first found hbefore text
  | cons member others =>
      -- The first member is the only one without a comma in front.
      have hspaced := (hothers member List.mem_cons_self).spaced
      rw [← hpassed (member :: others) hothers, List.map_cons, beforeCommas_cons_append,
        record.readMembers_member found hspaced]

end Record

end Json

namespace Settings

open Json

/-- The beginnings of project files, up to the bracket that opens the section as an object. In front
    of the section there may be members for other tools. -/
inductive EntersSection : List Char → Prop
  | member {before front name between behind : List Char} {others : List Member}
      (hbefore : Blanks before) (hothers : ∀ member ∈ others, member.Foreign "transpiler")
      (hfront : Blanks front) (hname : Spells name "transpiler".toList) (hbetween : Blanks between)
      (hbehind : Blanks behind) :
      EntersSection (before ++ '{' :: (beforeCommas (others.map Member.text) ++
        (front ++ '"' :: (name ++ '"' :: (between ++ ':' :: (behind ++ ['{']))))))
  | element {before behind : List Char} (hbefore : Blanks before) (hbehind : Blanks behind) :
      EntersSection (before ++ '[' :: (behind ++ ['{']))

/-- What may stand in the section in front of another member: nothing, or a level and a comma. -/
inductive AwaitsMember : List Char → Prop
  | nothing : AwaitsMember []
  | level {level : Level} {member : Member} (hown : sectionShape.Own level member) :
      AwaitsMember (member.text ++ [','])

/-- What is wrong inside the section is wrong with the file. -/
theorem read_of_entersSection {start text : List Char} {fault : Fault}
    (hstart : EntersSection start)
    (hfault : sectionRecord.readMembers true none text = .error fault) :
    fileRecord.read (start ++ text) = .error fault := by
  have hsection {behind : List Char} (hbehind : Blanks behind) :
      sectionRecord.read (behind ++ '{' :: text) = .error fault := by
    rw [Record.read, skipBlanks_append_cons hbehind (by decide)]
    exact (if_neg (by decide)).trans ((if_pos rfl).trans hfault)
  cases hstart with
  | @member before front name between behind others hbefore hothers hfront hname hbetween hbehind =>
      simp only [List.append_assoc, List.cons_append, List.nil_append]
      rw [Record.read, skipBlanks_append_cons hbefore (by decide)]
      simp only [if_neg (show '{' ≠ '[' by decide), if_true]
      rw [fileRecord.readMembers_beforeCommas rfl none hothers hfront,
        fileRecord.readMembers_name none hfront hname, Record.readMember,
        if_pos (show "transpiler" = fileRecord.field from rfl), skipColon_append hbetween]
      have hread : fileRecord.readField (behind ++ '{' :: text) = .error fault := hsection hbehind
      simp only [Option.isSome_none, Bool.false_eq_true, if_false, bind, Except.bind, hread]
  | @element before behind hbefore hbehind =>
      simp only [List.append_assoc, List.cons_append, List.nil_append]
      rw [Record.read, skipBlanks_append_cons hbefore (by decide)]
      simp only [if_true]
      have hread : fileRecord.readField ('{' :: text) = .error fault := hsection blanks_nil
      rw [Record.readElements, skipBlanks_append_cons hbehind (by decide)]
      simp only [if_neg (show '{' ≠ ']' by decide), hread]

theorem readMembers_of_awaitsMember {inner gap content : List Char} {name : String}
    (hinner : AwaitsMember inner) (hgap : Blanks gap) (hname : Spells content name.toList)
    (hne : name ≠ "logLevel") (rest : List Char) :
    sectionRecord.readMembers true none (inner ++ (gap ++ '"' :: (content ++ '"' :: rest))) =
      .error (.mismatch (.unknownField name "logLevel")) := by
  cases hinner with
  | nothing =>
      rw [List.nil_append, sectionRecord.readMembers_first none hgap]
      exact sectionRecord.readMembers_unknown rfl none hgap hname hne rest
  | @level level member hown =>
      have hends := ends_cons (Or.inl rfl) (gap ++ '"' :: (content ++ '"' :: rest))
      have hread := reads_levelText.takes hown.spaced.element.before hown.field
        (ends_blanks_append hown.spaced.element.after hends)
      rw [← Element.text_append] at hread
      rw [List.append_assoc, List.singleton_append,
        sectionRecord.readMembers_member none hown.spaced,
        sectionRecord.readMembers_own hown.spaced hown.name (.ok level) hread]
      exact sectionRecord.readMembers_unknown rfl (some level) hgap hname hne rest

theorem message_unknownField (name : String) :
    (Mismatch.unknownField name "logLevel").message =
      "unknown field `" ++ name ++ "`, expected `logLevel`" := by
  have hfront : "unknown field " ++ "`" = "unknown field `" := by decide
  have hback : "`" ++ (", expected " ++ ("`" ++ ("logLevel" ++ "`"))) =
      "`, expected `logLevel`" := by decide
  have hmessage : (Mismatch.unknownField name "logLevel").message =
      "unknown field " ++ code name ++ ", expected " ++ code "logLevel" := rfl
  rw [hmessage, ← hfront, ← hback]
  simp only [code, String.append_assoc]

/-- The name of an unknown member of the section ends the reading, whatever follows it. -/
theorem unknown_member_refused {start inner gap content : List Char} {name : String}
    (hstart : EntersSection start) (hinner : AwaitsMember inner) (hgap : Blanks gap)
    (hname : Spells content name.toList) (hne : name ≠ "logLevel") (continuation : List Char) :
    ∃ mismatch, Settings.ofText (String.ofList
        (start ++ (inner ++ (gap ++ '"' :: (content ++ '"' :: continuation))))) =
          .error (.mismatch mismatch) ∧
      mismatch.message = "unknown field `" ++ name ++ "`, expected `logLevel`" := by
  refine ⟨.unknownField name "logLevel", ?_, message_unknownField name⟩
  have hread := readMembers_of_awaitsMember hinner hgap hname hne continuation
  rw [ofText, complete, String.toList_ofList, read_of_entersSection hstart hread]
  rfl

-- The text is broken off behind the name, which stands behind a level.
theorem unknown_member_refused_at_end :
    ∃ mismatch, Settings.ofText
        "\x7b\"other\":null,\"transpiler\":\x7b\"logLevel\":\"info\",\"strict\"" =
          .error (.mismatch mismatch) ∧
      mismatch.message = "unknown field `strict`, expected `logLevel`" := by
  have hother : Member.Foreign "transpiler" (.tight "other" nullWord) :=
    ⟨Member.spaced_tight .., ⟨"other", spells_of_plain (by decide), by decide⟩, IsValue.null⟩
  have hsection : Spells "transpiler".toList "transpiler".toList := spells_of_plain (by decide)
  have hstart := EntersSection.member blanks_nil (List.forall_mem_singleton.mpr hother) blanks_nil
    hsection blanks_nil blanks_nil
  have hinfo : LevelText .info ('"' :: ("info".toList ++ ['"'])) :=
    LevelText.name (spells_of_plain (by decide))
  have hlevel : sectionShape.Own .info (.tight "logLevel" _) :=
    ⟨Member.spaced_tight .., spells_of_plain (by decide), hinfo⟩
  have hname : Spells "strict".toList "strict".toList := spells_of_plain (by decide)
  exact unknown_member_refused hstart (AwaitsMember.level hlevel) blanks_nil hname (by decide) []

end Settings

end TreeQuery
