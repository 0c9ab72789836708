import TreeQuery.Proofs.Json.Members

/-!
# What a value decides

A reader that is given a value and a text behind it may answer or fail, and it may stop
before it comes to the end of the value. But what it answers, or why it fails, is decided
by the value alone. If it answers it has taken the whole value, and what follows is left as
it is.

This needs the value to be well formed. A reader stops at the first thing that is wrong, so
behind a value that breaks the rules of the format nothing can be said about it.

The same holds for each member of an object: whether the loop over the members goes on
behind it, and with which value of the field, depends on what has been found before but not
on the members that follow.

## Main definitions

* `Decided`: What a reader makes of a value does not depend on what stands around it.

## Theorems

* `exists_unexpected`: What is wrong with a value of another sort.
* `Record.exists_round`: What one member does to the loop over the members.
* `Record.decided_read`: A value decides what the reader of a record makes of it.
* `Record.readMembers_behind`: What is read alike is read alike behind other members.
* `Record.readMembers_insert`: A member that has another name makes no difference.
-/

namespace TreeQuery.Json

variable {α : Type}

/-- What the reader makes of the value, and that it takes nothing else, does not depend on what
    stands around the value. -/
def Decided (reader : List Char → Except Fault (α × List Char)) (value : List Char) : Prop :=
  ∃ outcome : Except Fault α, ∀ before rest : List Char, Blanks before → Ends rest →
    reader (before ++ (value ++ rest)) = outcome.map fun found => (found, rest)

-- A string says something or it holds half of a character, whatever stands behind it.
theorem exists_name_or_malformed {content : List Char} (h : IsContent content) :
    (∃ name : String, Spells content name.toList) ∨
      ∀ rest, readText (content ++ '"' :: rest) = .error .malformed := by
  rcases spells_or_malformed h with ⟨cs, hcs⟩ | hmalformed
  · exact Or.inl ⟨String.ofList cs, String.toList_ofList.symm ▸ hcs⟩
  · exact Or.inr (hmalformed [])

/-- What is wrong with a value of another sort than the one that was asked for. -/
theorem exists_unexpected {value : List Char} (h : IsValue value) (expected : String) :
    ∃ fault, ∀ rest, Ends rest → unexpected expected (value ++ rest) = fault := by
  cases h with
  | null | yes | no | array | object => exact ⟨_, fun rest _ => rfl⟩
  | @text content hcontent =>
      have hquote rest : unexpected expected ('"' :: (content ++ ['"']) ++ rest) =
          unexpectedText expected (content ++ '"' :: rest) := by
        rw [quoted_append]
        rfl
      rcases exists_name_or_malformed hcontent with ⟨name, hname⟩ | hmalformed
      · refine ⟨.mismatch (.wrongType (.text name) expected), fun rest _ => ?_⟩
        rw [hquote, unexpectedText, readText_append hname]
      · refine ⟨.malformed, fun rest _ => ?_⟩
        rw [hquote, unexpectedText, hmalformed]
  | number hnumber =>
      rcases Numeral.exists_read_append hnumber with ⟨numeral, hread⟩
      rcases hnumber.exists_cons with ⟨c, tail, rfl, hc⟩
      have hne {d : Char} (hd : opensNumber d = false) : c ≠ d := ne_of_opensNumber hc hd
      have hopens rest : unexpected expected (c :: tail ++ rest) =
          unexpectedNumber expected (c :: tail ++ rest) := by
        simp only [List.cons_append, unexpected, hc, if_true, if_neg (hne (d := 'n') rfl),
          if_neg (hne (d := 't') rfl), if_neg (hne (d := 'f') rfl), if_neg (hne (d := '"') rfl),
          if_neg (hne (d := '[') rfl), if_neg (hne (d := '{') rfl)]
      cases hvalue : numeral.value with
      | error fault =>
          refine ⟨fault, fun rest hrest => ?_⟩
          simp only [hopens, unexpectedNumber, hread .ended rest hrest, hvalue]
      | ok found =>
          refine ⟨.mismatch (.wrongType found expected), fun rest hrest => ?_⟩
          simp only [hopens, unexpectedNumber, hread .ended rest hrest, hvalue]

namespace Record

variable (record : Record α)

/-- What one member does to the loop over the members: the loop ends with a fault, or it goes on
    behind the member with a value of the field that may be new. -/
theorem exists_round {member : Member} (h : member.WellFormed)
    (hfield : Decided record.readField member.element.value) (found : Option α) :
    ∃ outcome : Except Fault (Option α), ∀ rest, Ends rest →
      record.readMembers false found (',' :: (member.text ++ rest)) =
        outcome >>= fun next => record.readMembers false next rest := by
  rcases exists_name_or_malformed h.name with ⟨name, hname⟩ | hmalformed
  · by_cases hown : name = record.field
    · cases found with
      | some value =>
          refine ⟨.error (.mismatch (.duplicateField name)), fun rest _ => ?_⟩
          rw [readMembers_next record _ h.spaced hname, readMember, if_pos hown]
          rfl
      | none =>
          rcases hfield with ⟨outcome, houtcome⟩
          refine ⟨outcome.map some, fun rest hrest => ?_⟩
          have hends := ends_blanks_append h.spaced.element.after hrest
          have hread := houtcome _ _ h.spaced.element.before hends
          rw [← Element.text_append] at hread
          rw [record.readMembers_own h.spaced (hown ▸ hname) outcome hread]
          cases outcome <;> rfl
    · cases hclosed : record.closed with
      | true =>
          refine ⟨.error (.mismatch (.unknownField name record.field)), fun rest _ => ?_⟩
          rw [Member.text_append]
          exact record.readMembers_unknown hclosed found h.spaced.before hname hown _
      | false =>
          refine ⟨.ok found, fun rest hrest => ?_⟩
          have hforeign : member.Foreign record.field := ⟨h.spaced, ⟨name, hname, hown⟩, h.value⟩
          exact record.readMembers_other hclosed found hforeign hrest
  · refine ⟨.error .malformed, fun rest _ => ?_⟩
    rw [Member.text_append, readMembers_eq, nextName_next h.spaced.before, hmalformed]
    rfl

-- By induction on the members. The first of them decides how the loop goes on.
theorem exists_outcome_of_members {members : List Member}
    (hwell : ∀ member ∈ members, member.WellFormed)
    (hfield : ∀ member ∈ members, Decided record.readField member.element.value)
    (found : Option α) :
    ∃ outcome : Except Fault α, ∀ rest,
      record.readMembers false found (behindCommas (members.map Member.text) ++ '}' :: rest) =
        outcome.map fun value => (value, rest) := by
  induction members generalizing found with
  | nil => exact ⟨.ok (found.getD record.missing), record.readMembers_end false found blanks_nil⟩
  | cons member others ih =>
      rcases List.forall_mem_cons.mp hwell with ⟨hmember, hwell⟩
      rcases List.forall_mem_cons.mp hfield with ⟨hvalue, hfield⟩
      rcases record.exists_round hmember hvalue found with ⟨next, hround⟩
      have hround rest := hround _ (ends_behindCommas (Or.inr rfl) (others.map Member.text) rest)
      simp only [List.map_cons, behindCommas_cons, List.cons_append, List.append_assoc, hround]
      cases next with
      | error fault => exact ⟨.error fault, fun rest => rfl⟩
      | ok next => exact ih hwell hfield next

-- The first element is read and then the array has to end. If it does not, that is what is wrong.
theorem exists_outcome_of_elements {element : Element} (hspaced : element.Spaced)
    (hvalue : IsValue element.value) (hfield : Decided record.readField element.value)
    (others : List Element) :
    ∃ outcome : Except Fault α, ∀ rest,
      record.readElements
          (element.text ++ (behindCommas (others.map Element.text) ++ ']' :: rest)) =
        outcome.map fun value => (value, rest) := by
  rcases hfield with ⟨outcome, houtcome⟩
  have hread rest := record.readElements_append hspaced hvalue outcome
    (houtcome [] _ blanks_nil (ends_blanks_append hspaced.after
      (ends_behindCommas (Or.inl rfl) (others.map Element.text) rest)))
  cases others with
  | nil =>
      refine ⟨outcome, fun rest => (hread rest).trans ?_⟩
      cases outcome <;> rfl
  | cons other others =>
      refine ⟨outcome >>= fun _ => .error .malformed, fun rest => (hread rest).trans ?_⟩
      cases outcome <;> rfl

theorem decided_arrayText (hfield : ∀ {value : List Char}, IsValue value →
    Decided record.readField value) {gap : List Char} {elements : List Element} (hgap : Blanks gap)
    (hspaced : ∀ element ∈ elements, element.Spaced)
    (hvalues : ∀ element ∈ elements, IsValue element.value) :
    Decided record.read (arrayText gap elements) := by
  cases elements with
  | nil =>
      refine ⟨.ok record.missing, fun before rest hbefore _ => ?_⟩
      rw [record.read_arrayText hbefore, List.map_nil, inside, readElements,
        skipBlanks_append_cons hgap (by decide)]
      exact if_pos rfl
  | cons element others =>
      have hvalue := hvalues element List.mem_cons_self
      rcases record.exists_outcome_of_elements (hspaced element List.mem_cons_self) hvalue
        (hfield hvalue) others with ⟨outcome, houtcome⟩
      refine ⟨outcome, fun before rest hbefore _ => ?_⟩
      rw [record.read_arrayText hbefore, List.map_cons, inside, List.append_assoc, houtcome]

theorem decided_objectText (hfield : ∀ {value : List Char}, IsValue value →
    Decided record.readField value) {gap : List Char} {members : List Member} (hgap : Blanks gap)
    (hwell : ∀ member ∈ members, member.WellFormed) :
    Decided record.read (objectText gap members) := by
  have hfield : ∀ member ∈ members, Decided record.readField member.element.value :=
    fun member hmem => hfield (hwell member hmem).value
  rcases record.exists_outcome_of_members hwell hfield none with ⟨outcome, houtcome⟩
  refine ⟨outcome, fun before rest hbefore _ => ?_⟩
  rw [record.read_objectText hbefore hgap fun member hmem => (hwell member hmem).spaced, houtcome]

/-- A value decides what the reader of a record makes of it if that is so for the reader of the
    field. -/
theorem decided_read (hfield : ∀ {value : List Char}, IsValue value →
    Decided record.readField value) {value : List Char} (h : IsValue value) :
    Decided record.read value := by
  rcases exists_unexpected h record.title with ⟨fault, hfault⟩
  -- Any other value than an array or an object is refused.
  have hother {c : Char} {tail : List Char} (hvalue : value = c :: tail)
      (hblank : isBlank c = false) (harray : c ≠ '[') (hobject : c ≠ '{') :
      Decided record.read value := by
    refine ⟨.error fault, fun before rest hbefore hrest => ?_⟩
    have hfault := hfault rest hrest
    rw [hvalue, List.cons_append] at hfault ⊢
    rw [read, skipBlanks_append_cons hbefore hblank]
    simp only [if_neg harray, if_neg hobject, hfault]
    rfl
  cases h with
  | null | yes | no | text => exact hother rfl rfl (by decide) (by decide)
  | number hnumber =>
      rcases hnumber.exists_cons with ⟨c, tail, hvalue, hc⟩
      exact hother hvalue (not_isBlank_of_opensNumber hc) (ne_of_opensNumber hc rfl)
        (ne_of_opensNumber hc rfl)
  | array hgap hspaced hvalues => exact record.decided_arrayText hfield hgap hspaced hvalues
  | object hgap hspaced hnames hvalues =>
      exact record.decided_objectText hfield hgap fun member hmem =>
        ⟨hspaced member hmem, hnames member hmem, hvalues member hmem⟩

/-- Texts that are read alike are read alike behind any members. The induction is on the members:
    each of them leads to the same value of the field, or to the same fault. -/
theorem readMembers_behind (hfield : ∀ {value : List Char}, IsValue value →
    Decided record.readField value) {earlier : List Member}
    (hearlier : ∀ member ∈ earlier, member.WellFormed) {text other : List Char}
    (htext : Ends text) (hother : Ends other)
    (hsame : ∀ found, record.readMembers false found text = record.readMembers false found other)
    (found : Option α) :
    record.readMembers false found (behindCommas (earlier.map Member.text) ++ text) =
      record.readMembers false found (behindCommas (earlier.map Member.text) ++ other) := by
  have hends (members : List Member) {text : List Char} (htext : Ends text) :
      Ends (behindCommas (members.map Member.text) ++ text) := by
    cases members with
    | nil => exact htext
    | cons member others => exact ends_cons (Or.inl rfl) _
  induction earlier generalizing found with
  | nil => exact hsame found
  | cons member others ih =>
      rcases List.forall_mem_cons.mp hearlier with ⟨hmember, hothers⟩
      rcases record.exists_round hmember (hfield hmember.value) found with ⟨next, hround⟩
      simp only [List.map_cons, behindCommas_cons, List.cons_append, List.append_assoc]
      rw [hround _ (hends others htext), hround _ (hends others hother)]
      cases next with
      | error fault => rfl
      | ok next => exact ih hothers next

/-- Where other members may stand, one of them makes no difference, wherever it stands and whatever
    is right or wrong with the others. -/
theorem readMembers_insert (hopen : record.closed = false) (hfield : ∀ {value : List Char},
    IsValue value → Decided record.readField value) {earlier : List Member}
    (hearlier : ∀ member ∈ earlier, member.WellFormed) {foreign : Member}
    (hforeign : foreign.Foreign record.field) (later : List Member) (found : Option α)
    (rest : List Char) :
    record.readMembers false found
        (behindCommas ((earlier ++ foreign :: later).map Member.text) ++ '}' :: rest) =
      record.readMembers false found
        (behindCommas ((earlier ++ later).map Member.text) ++ '}' :: rest) := by
  have hends (members : List Member) :
      Ends (behindCommas (members.map Member.text) ++ '}' :: rest) :=
    ends_behindCommas (Or.inr rfl) (members.map Member.text) rest
  simp only [List.map_append, behindCommas_append, List.append_assoc]
  refine record.readMembers_behind hfield hearlier (hends (foreign :: later)) (hends later) ?_ found
  intro found
  rw [List.map_cons, behindCommas_cons, List.cons_append, List.append_assoc]
  exact record.readMembers_other hopen found hforeign (hends later)

end Record

end TreeQuery.Json
