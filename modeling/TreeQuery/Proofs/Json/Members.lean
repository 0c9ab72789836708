import TreeQuery.Json.Record
import TreeQuery.Proofs.Json.Value

/-!
# Reading members one by one

The members of an object are read in a loop that keeps the value of the field, once it
has been found. One round of the loop reads one member, and what the round does with it
depends on its name and on whether the field has been found, but not on the members
that follow.

The reader treats the first member apart, because no comma stands in front of it. An
object is read as if there were one, so that every round begins in the same way, and
the text of the members that are left is a list of parts behind commas.

## Main definitions

* `Record.readMember`: What is done with one member, from behind its name.
* `laidOut`: The text of members, the first of them with or without a comma in front.

## Theorems

* `nextName_end`, `nextName_first`, `nextName_next`: The name of the next member.
* `Record.readMembers_eq`: Reading members is reading one member after the other.
* `Record.readMembers_inside`: The first member is read as if a comma stood in front.
* `Record.readMembers_other`, `Record.readMembers_own`: One round of the loop.
* `Record.readElements_append`: The only element of an array.
* `Record.read_arrayText`, `Record.read_objectText`: The two forms of a record.
-/

namespace TreeQuery.Json

theorem readName_append {before : List Char} (hbefore : Blanks before) (text : List Char) :
    readName (before ++ '"' :: text) = readText text := by
  rw [readName, skipBlanks_append_cons hbefore (by decide)]
  exact if_pos rfl

theorem exists_spells_of_readName {text rest : List Char} {name : String}
    (h : readName text = .ok (name, rest)) :
    ∃ before content, Blanks before ∧ Spells content name.toList ∧
      text = before ++ '"' :: (content ++ '"' :: rest) := by
  unfold readName at h
  split at h
  · cases h
  next hblanks =>
    split at h
    next hquote =>
      rcases exists_blanks_of_skipBlanks hblanks with ⟨before, hbefore, rfl⟩
      rcases exists_spells_of_readText h with ⟨content, hcontent, rfl⟩
      rw [hquote]
      exact ⟨before, content, hbefore, hcontent, rfl⟩
    · cases h

theorem nextName_blanks {gap : List Char} (hgap : Blanks gap) (first : Bool) (text : List Char) :
    nextName first (gap ++ text) = nextName first text := by
  rw [nextName, nextName, skipBlanks_append hgap]

theorem nextName_end {gap : List Char} (hgap : Blanks gap) (first : Bool) (rest : List Char) :
    nextName first (gap ++ '}' :: rest) = .ok (none, rest) := by
  rw [nextName, skipBlanks_append_cons hgap (by decide)]
  exact if_pos rfl

theorem nextName_next {before : List Char} (hbefore : Blanks before) (text : List Char) :
    nextName false (',' :: (before ++ '"' :: text)) =
      (readText text).map fun found => (some found.1, found.2) := by
  rw [nextName, ← List.nil_append (',' :: _), skipBlanks_append_cons blanks_nil (by decide)]
  simp only [if_neg (show ',' ≠ '}' by decide), Bool.false_eq_true, if_false, if_true,
    readName_append hbefore]
  cases readText text <;> rfl

theorem nextName_first {before : List Char} (hbefore : Blanks before) (text : List Char) :
    nextName true (before ++ '"' :: text) = nextName false (',' :: (before ++ '"' :: text)) := by
  rw [nextName_next hbefore, nextName, skipBlanks_append_cons hbefore (by decide)]
  have hname : readName ('"' :: text) = readText text := readName_append blanks_nil text
  simp only [if_neg (show '"' ≠ '}' by decide), if_true, hname]
  cases readText text <;> rfl

/-- What stands in front of the next member: nothing if it is the first one, else the blanks behind
    the last one and a comma. -/
def front (first : Bool) (gap : List Char) : List Char :=
  if first then [] else gap ++ [',']

/-- The text of the members that are left. Without any there are only blanks. -/
def laidOut (first : Bool) (gap : List Char) : List (List Char) → List Char
  | [] => gap
  | part :: others => front first gap ++ (part ++ behindCommas others)

theorem laidOut_true (gap : List Char) (parts : List (List Char)) :
    laidOut true gap parts = inside gap parts := by
  cases parts <;> rfl

theorem laidOut_false (gap : List Char) (parts : List (List Char)) :
    laidOut false gap parts = gap ++ behindCommas parts := by
  cases parts with
  | nil => rw [laidOut, behindCommas_nil, List.append_nil]
  | cons part others =>
      simp only [laidOut, front, behindCommas_cons, List.append_assoc,
        List.cons_append, List.nil_append, Bool.false_eq_true, if_false]

-- A member that was read piece by piece, in front of those that were read after it.
theorem laidOut_cons (first : Bool) (gap : List Char) (member : Member) (parts : List (List Char))
    (rest : List Char) : front first gap ++ (member.before ++ '"' :: (member.name ++ '"' ::
      (member.after ++ ':' :: (member.element.before ++ (member.element.value ++
        (laidOut false member.element.after parts ++ rest)))))) =
      laidOut first gap (member.text :: parts) ++ rest := by
  simp only [laidOut_false, List.append_assoc]
  rw [laidOut, List.append_assoc, List.append_assoc, Member.text_append, Element.text_append]

theorem exists_blanks_of_nextName {first : Bool} {text rest : List Char}
    (h : nextName first text = .ok (none, rest)) :
    ∃ gap, Blanks gap ∧ text = gap ++ '}' :: rest := by
  unfold nextName at h
  split at h
  · cases h
  next hblanks =>
    split at h
    next hclose =>
      simp only [Except.ok.injEq, Prod.mk.injEq, true_and] at h
      rw [hclose, h] at hblanks
      exact exists_blanks_of_skipBlanks hblanks
    · dsimp only at h
      split at h
      · cases h
      · split at h
        · cases h
        · cases (Prod.mk.inj (Except.ok.inj h)).1

theorem exists_spells_of_nextName {first : Bool} {text rest : List Char} {name : String}
    (h : nextName first text = .ok (some name, rest)) :
    ∃ gap before content, Blanks gap ∧ Blanks before ∧ Spells content name.toList ∧
      text = front first gap ++ (before ++ '"' :: (content ++ '"' :: rest)) := by
  unfold nextName at h
  split at h
  · cases h
  next hblanks =>
    rcases exists_blanks_of_skipBlanks hblanks with ⟨gap, hgap, rfl⟩
    split at h
    · cases (Prod.mk.inj (Except.ok.inj h)).1
    · dsimp only at h
      split at h
      · cases h
      next hplace =>
        split at h
        · cases h
        next hread =>
          simp only [Except.ok.injEq, Prod.mk.injEq, Option.some.injEq] at h
          rcases h with ⟨rfl, rfl⟩
          rcases exists_spells_of_readName hread with ⟨before, content, hbefore, hcontent, rfl⟩
          cases first with
          | true =>
              -- The blanks in front of the first name have been passed twice.
              refine ⟨[], gap ++ before, content, blanks_nil, blanks_append hgap hbefore, hcontent,
                ?_⟩
              rw [Option.some.inj hplace, List.append_assoc]
              rfl
          | false =>
              rw [if_neg Bool.false_ne_true] at hplace
              split at hplace
              next hcomma =>
                refine ⟨gap, before, content, hgap, hbefore, hcontent, ?_⟩
                rw [hcomma, Option.some.inj hplace]
                simp only [front, Bool.false_eq_true, if_false, List.append_assoc,
                  List.singleton_append]
              · cases hplace

/-- A member that has another name than the field, and any value. -/
structure Member.Foreign (field : String) (member : Member) : Prop where
  spaced : member.Spaced
  name : ∃ name : String, Spells member.name name.toList ∧ name ≠ field
  value : IsValue member.element.value

theorem Member.Foreign.wellFormed {field : String} {member : Member}
    (h : member.Foreign field) : member.WellFormed := by
  rcases h.name with ⟨_, hname, _⟩
  exact ⟨h.spaced, hname.isContent, h.value⟩

namespace Record

variable {α : Type} (record : Record α)

/-- What is done with one member, from behind its name: the value of the field as it is afterwards,
    and what follows the member. -/
def readMember (found : Option α) (name : String) (text : List Char) :
    Except Fault (Option α × List Char) :=
  if name = record.field then
    if found.isSome then .error (.mismatch (.duplicateField name))
    else do
      let (value, rest) ← skipColon text >>= record.readField
      pure (some value, rest)
  else if record.closed then .error (.mismatch (.unknownField name record.field))
  else do
    let rest ← skipColon text >>= skipValue
    pure (found, rest)

/-- Reading members is reading one member after the other. -/
theorem readMembers_eq (first : Bool) (found : Option α) (text : List Char) :
    record.readMembers first found text =
      match nextName first text with
      | .error fault => .error fault
      | .ok (none, rest) => .ok (found.getD record.missing, rest)
      | .ok (some name, rest) =>
        record.readMember found name rest >>= fun next =>
          record.readMembers false next.1 next.2 := by
  rw [readMembers]
  split
  next hnext => simp only [hnext]
  next hnext => simp only [hnext]
  next hnext =>
    simp only [hnext, readMember]
    split
    · split
      · rfl
      · split
        next hcolon => rw [hcolon]; rfl
        next hcolon =>
          rw [hcolon]
          split
          next hvalue => simp only [bind, Except.bind, hvalue]
          next hvalue => simp only [bind, Except.bind, hvalue, pure, Except.pure]
    · split
      · rfl
      · split
        next hcolon => rw [hcolon]; rfl
        next hcolon =>
          rw [hcolon]
          split
          next hvalue => simp only [bind, Except.bind, hvalue]
          next hvalue => simp only [bind, Except.bind, hvalue, pure, Except.pure]

theorem readMembers_blanks {gap : List Char} (hgap : Blanks gap) (first : Bool) (found : Option α)
    (text : List Char) :
    record.readMembers first found (gap ++ text) = record.readMembers first found text := by
  rw [readMembers_eq, nextName_blanks hgap, ← readMembers_eq]

theorem readMembers_end (first : Bool) (found : Option α) {gap : List Char} (hgap : Blanks gap)
    (rest : List Char) : record.readMembers first found (gap ++ '}' :: rest) =
      .ok (found.getD record.missing, rest) := by
  rw [readMembers_eq, nextName_end hgap]

theorem readMembers_first (found : Option α) {before : List Char} (hbefore : Blanks before)
    (text : List Char) : record.readMembers true found (before ++ '"' :: text) =
      record.readMembers false found (',' :: (before ++ '"' :: text)) := by
  rw [readMembers_eq, nextName_first hbefore, ← readMembers_eq]

/-- The first member is read as if a comma stood in front of it. -/
theorem readMembers_inside (found : Option α) {gap : List Char} (hgap : Blanks gap)
    {members : List Member} (hspaced : ∀ member ∈ members, member.Spaced) (rest : List Char) :
    record.readMembers true found (inside gap (members.map Member.text) ++ '}' :: rest) =
      record.readMembers false found (behindCommas (members.map Member.text) ++ '}' :: rest) := by
  cases members with
  | nil =>
      have hend := record.readMembers_end false found blanks_nil rest
      exact (record.readMembers_end true found hgap rest).trans hend.symm
  | cons member others =>
      have hbefore := (hspaced member List.mem_cons_self).before
      simp only [List.map_cons, inside, behindCommas_cons, Member.text,
        List.append_assoc, List.cons_append]
      exact record.readMembers_first found hbefore _

-- One round of the loop, once the name of the member is known.
theorem readMembers_name (found : Option α) {before content : List Char} {name : String}
    (hbefore : Blanks before) (hname : Spells content name.toList) (text : List Char) :
    record.readMembers false found (',' :: (before ++ '"' :: (content ++ '"' :: text))) =
      record.readMember found name text >>= fun next =>
        record.readMembers false next.1 next.2 := by
  rw [readMembers_eq, nextName_next hbefore, readText_append hname]
  rfl

theorem readMembers_next (found : Option α) {member : Member} (hspaced : member.Spaced)
    {name : String} (hname : Spells member.name name.toList) (rest : List Char) :
    record.readMembers false found (',' :: (member.text ++ rest)) =
      record.readMember found name (member.after ++ ':' :: (member.element.text ++ rest)) >>=
        fun next => record.readMembers false next.1 next.2 := by
  rw [Member.text_append, readMembers_name record found hspaced.before hname]

/-- A member with another name is skipped if the record lets it stand. -/
theorem readMembers_other (hopen : record.closed = false) (found : Option α) {member : Member}
    (h : member.Foreign record.field) {rest : List Char} (hrest : Ends rest) :
    record.readMembers false found (',' :: (member.text ++ rest)) =
      record.readMembers false found rest := by
  rcases h.name with ⟨name, hname, hne⟩
  have hends := ends_blanks_append h.spaced.element.after hrest
  rw [readMembers_next record found h.spaced hname, readMember, if_neg hne, hopen,
    skipColon_append h.spaced.after, Element.text_append]
  simp only [Bool.false_eq_true, if_false, bind, Except.bind,
    skipValue_append h.spaced.element.before h.value hends, pure, Except.pure,
    readMembers_blanks record h.spaced.element.after]

/-- Where no other members may stand, the name of one ends the reading. -/
theorem readMembers_unknown (hclosed : record.closed = true) (found : Option α)
    {before content : List Char} {name : String} (hbefore : Blanks before)
    (hname : Spells content name.toList) (hne : name ≠ record.field) (text : List Char) :
    record.readMembers false found (',' :: (before ++ '"' :: (content ++ '"' :: text))) =
      .error (.mismatch (.unknownField name record.field)) := by
  rw [readMembers_name record found hbefore hname, readMember, if_neg hne, if_pos hclosed]
  rfl

/-- The member of the field is read if there was none before. -/
theorem readMembers_own {member : Member} (hspaced : member.Spaced)
    (hname : Spells member.name record.field.toList) (outcome : Except Fault α) {rest : List Char}
    (hread : record.readField (member.element.text ++ rest) =
      outcome.map fun value => (value, member.element.after ++ rest)) :
    record.readMembers false none (',' :: (member.text ++ rest)) =
      outcome >>= fun value => record.readMembers false (some value) rest := by
  rw [readMembers_next record none hspaced hname, readMember, if_pos rfl,
    skipColon_append hspaced.after]
  simp only [Option.isSome_none, Bool.false_eq_true, if_false, bind, Except.bind, hread]
  cases outcome with
  | error fault => rfl
  | ok value => exact record.readMembers_blanks hspaced.element.after false (some value) rest

-- The first element is read, and behind it the array has to end.
theorem readElements_append {element : Element} (hspaced : element.Spaced)
    (hvalue : IsValue element.value) (outcome : Except Fault α) {rest : List Char}
    (hread : record.readField (element.value ++ (element.after ++ rest)) =
      outcome.map fun value => (value, element.after ++ rest)) :
    record.readElements (element.text ++ rest) = outcome >>= fun value =>
      match skipBlanks rest with
      | [] => .error .ended
      | c :: last => if c = ']' then .ok (value, last) else .error .malformed := by
  -- The reader has passed the blanks, to see whether there is an element.
  rcases exists_cons_of_isValue hvalue with ⟨c, tail, hcons, hblank, hc⟩
  rw [hcons, List.cons_append] at hread
  rw [Element.text_append, hcons, List.cons_append, readElements,
    skipBlanks_append_cons hspaced.before hblank]
  simp only [if_neg hc, hread]
  cases outcome with
  | error fault => rfl
  | ok value =>
      simp only [Except.map, skipBlanks_append hspaced.after]
      rfl

theorem read_arrayText {before gap : List Char} (hbefore : Blanks before) (elements : List Element)
    (rest : List Char) : record.read (before ++ (arrayText gap elements ++ rest)) =
      record.readElements (inside gap (elements.map Element.text) ++ ']' :: rest) := by
  rw [arrayText_append, read, skipBlanks_append_cons hbefore (by decide)]
  exact if_pos rfl

theorem read_objectText {before gap : List Char} (hbefore : Blanks before) (hgap : Blanks gap)
    {members : List Member} (hspaced : ∀ member ∈ members, member.Spaced) (rest : List Char) :
    record.read (before ++ (objectText gap members ++ rest)) =
      record.readMembers false none (behindCommas (members.map Member.text) ++ '}' :: rest) := by
  rw [objectText_append, read, skipBlanks_append_cons hbefore (by decide)]
  simp only [if_neg (show '{' ≠ '[' by decide), if_true]
  exact record.readMembers_inside none hgap hspaced rest

end Record

end TreeQuery.Json
