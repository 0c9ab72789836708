import TreeQuery.Proofs.Json.Decided

/-!
# The two forms of a record

A record with one field is written as an array of one element or as an object of one member.
Two loops read them, and neither adds anything of its own: both make of the record what the
reader of the field makes of the value, be it an answer or a fault.

`Yields` says what a reader makes of a value, where `Decided` only says that there is something
that it makes. With it the value of a field can be exchanged. A text around it may have other
members in front of it and behind it, and any fault of theirs. As long as the reader of the
field makes the same of two values, the reader of the record makes the same of the two texts
that hold them.

## Main definitions

* `Yields`: What a reader makes of a value.
* `IsText`: A text that holds one value.
* `asArray`, `asObject`: A text in the two forms of a record.
* `Frame`: The text of a record around the value of its field.

## Theorems

* `Yields.complete_eq`: What is made of a text that is read to its end.
* `Record.yields_arrayText`, `Record.yields_objectText`: Either form yields what its field yields.
* `Record.complete_asArray`, `Record.complete_asObject`: So do the texts in these forms.
* `Record.read_fill_congr`: Values that yield the same can be exchanged.
-/

namespace TreeQuery.Json

variable {α : Type}

/-- The reader makes the outcome of the value, whatever stands around it, and takes nothing else. -/
def Yields (reader : List Char → Except Fault (α × List Char)) (value : List Char)
    (outcome : Except Fault α) : Prop :=
  ∀ before rest : List Char, Blanks before → Ends rest →
    reader (before ++ (value ++ rest)) = outcome.map fun found => (found, rest)

/-- A text that holds one value, with blanks around it. -/
def IsText (text : String) : Prop :=
  ∃ element : Element, element.Spaced ∧ IsValue element.value ∧ text.toList = element.text

def asArray (text : String) : String :=
  "[" ++ text ++ "]"

def asObject (field text : String) : String :=
  "\x7b\"" ++ field ++ "\":" ++ text ++ "\x7d"

/-- The member with another value. -/
def Member.hold (member : Member) (value : List Char) : Member :=
  { member with element := { member.element with value := value } }

theorem Member.spaced_hold {member : Member} (h : member.Spaced) (value : List Char) :
    (member.hold value).Spaced :=
  ⟨h.before, h.after, ⟨h.element.before, h.element.after⟩⟩

/-- The text of a record around the value of its field. -/
inductive Frame where
  /-- An array whose first element has these blanks around it. -/
  | array (before after : List Char) (others : List Element)
  /-- An object with a member whose value is left open. -/
  | object (earlier : List Member) (own : Member) (later : List Member)

namespace Frame

/-- The text of the record with the value of its field. -/
def fill : Frame → List Char → List Char
  | array before after others, value => arrayText [] (⟨before, value, after⟩ :: others)
  | object earlier own later, value => objectText [] (earlier ++ own.hold value :: later)

/-- Around the field stand only blanks, and any other members. -/
inductive Fits (field : String) : Frame → Prop
  | array {before after : List Char} {others : List Element} (hbefore : Blanks before)
      (hafter : Blanks after) : Fits field (array before after others)
  | object {earlier later : List Member} {own : Member} (hspaced : own.Spaced)
      (hname : Spells own.name field.toList)
      (hothers : ∀ member ∈ earlier ++ later, member.WellFormed) :
      Fits field (object earlier own later)

end Frame

variable {reader : List Char → Except Fault (α × List Char)} {value other : List Char}
  {outcome : Except Fault α}

theorem Decided.exists_yields (h : Decided reader value) : ∃ outcome, Yields reader value outcome :=
  h

/-- What is made of a text that is read to its end. -/
theorem Yields.complete_eq {element : Element} (h : Yields reader element.value outcome)
    (hspaced : element.Spaced) {text : String} (htext : text.toList = element.text) :
    complete reader text = outcome := by
  rw [complete, htext, Element.text, h _ _ hspaced.before (ends_of_blanks hspaced.after)]
  cases outcome with
  | error fault => rfl
  | ok found =>
      simp only [Except.map, skipBlanks_of_blanks hspaced.after, List.isEmpty_nil, if_true]

-- A value without blanks around it.
theorem Yields.complete_of_toList (h : Yields reader value outcome) {text : String}
    (htext : text.toList = value) : complete reader text = outcome := by
  have hspaced : Element.Spaced ⟨[], value, []⟩ := ⟨blanks_nil, blanks_nil⟩
  refine Yields.complete_eq h hspaced ?_
  rw [htext, Element.text, List.append_nil, List.nil_append]

theorem toList_asArray {text : String} {element : Element} (htext : text.toList = element.text) :
    (asArray text).toList = arrayText [] [element] := by
  simp only [asArray, String.toList_append, htext, arrayText, List.map_cons, List.map_nil,
    inside_singleton]
  rfl

theorem toList_asObject (field : String) {text : String} {element : Element}
    (htext : text.toList = element.text) :
    (asObject field text).toList = objectText [] [⟨[], field.toList, [], element⟩] := by
  simp only [asObject, String.toList_append, htext, objectText, List.map_cons, List.map_nil,
    inside_singleton, Member.text, List.append_assoc, List.cons_append, List.nil_append]
  rfl

theorem isText_of_isValue {text : String} (h : IsValue text.toList) : IsText text := by
  refine ⟨⟨[], text.toList, []⟩, ⟨blanks_nil, blanks_nil⟩, h, ?_⟩
  rw [Element.text, List.append_nil, List.nil_append]

-- Brackets around a text make a value of it, without blanks around the brackets.
theorem isValue_asArray {text : String} (h : IsText text) : IsValue (asArray text).toList := by
  rcases h with ⟨element, hspaced, hvalue, htext⟩
  rw [toList_asArray htext]
  exact IsValue.array blanks_nil (List.forall_mem_singleton.mpr hspaced)
    (List.forall_mem_singleton.mpr hvalue)

theorem isValue_asObject {field text : String} (hfield : IsContent field.toList)
    (h : IsText text) : IsValue (asObject field text).toList := by
  rcases h with ⟨element, hspaced, hvalue, htext⟩
  rw [toList_asObject field htext]
  refine isValue_objectText blanks_nil (List.forall_mem_singleton.mpr ?_)
  exact ⟨⟨blanks_nil, blanks_nil, hspaced⟩, hfield, hvalue⟩

namespace Record

variable (record : Record α)

/-- An array of one element yields what the element yields. -/
theorem yields_arrayText {element : Element} (hspaced : element.Spaced)
    (hvalue : IsValue element.value) (h : Yields record.readField element.value outcome) :
    Yields record.read (arrayText [] [element]) outcome := by
  intro before rest hbefore _
  have hends := ends_blanks_append hspaced.after (ends_cons (Or.inr (Or.inl rfl)) rest)
  rw [record.read_arrayText hbefore, List.map_cons, List.map_nil, inside_singleton,
    record.readElements_append hspaced hvalue outcome (h [] _ blanks_nil hends)]
  cases outcome <;> rfl

/-- An object whose only member is the field yields what its value yields. -/
theorem yields_objectText {member : Member} (hspaced : member.Spaced)
    (hname : Spells member.name record.field.toList)
    (h : Yields record.readField member.element.value outcome) :
    Yields record.read (objectText [] [member]) outcome := by
  intro before rest hbefore _
  have hends := ends_blanks_append hspaced.element.after (ends_cons (Or.inr (Or.inr rfl)) rest)
  have hread := h _ _ hspaced.element.before hends
  rw [← Element.text_append] at hread
  rw [record.read_objectText hbefore blanks_nil (List.forall_mem_singleton.mpr hspaced),
    List.map_cons, List.map_nil, behindCommas_cons, behindCommas_nil, List.append_nil,
    List.cons_append, record.readMembers_own hspaced hname outcome hread]
  cases outcome with
  | error fault => rfl
  | ok found => exact record.readMembers_end false (some found) blanks_nil rest

-- The member of the field counts for what its value yields, unless the field has been found before.
theorem readMembers_hold {own : Member} (hspaced : own.Spaced)
    (hname : Spells own.name record.field.toList) (h : Yields record.readField value outcome)
    (found : Option α) {rest : List Char} (hrest : Ends rest) :
    record.readMembers false found (',' :: ((own.hold value).text ++ rest)) =
      (if found.isSome then .error (.mismatch (.duplicateField record.field)) else outcome) >>=
        fun value => record.readMembers false (some value) rest := by
  have hheld := Member.spaced_hold hspaced value
  cases found with
  | some found =>
      rw [record.readMembers_next _ hheld hname, readMember, if_pos rfl]
      rfl
  | none =>
      have hread := h _ _ hheld.element.before (ends_blanks_append hheld.element.after hrest)
      refine record.readMembers_own hheld hname outcome ?_
      rw [Element.text_append]
      exact hread

/-- The value of the field can be exchanged for one that yields the same. What is read of the text
    around it does not change, and neither do the faults of that text. -/
theorem read_fill_congr (hfield : ∀ {value : List Char}, IsValue value →
    Decided record.readField value) {frame : Frame} (hframe : frame.Fits record.field)
    (hvalue : IsValue value) (hother : IsValue other) (h : Yields record.readField value outcome)
    (hsame : Yields record.readField other outcome) {before : List Char} (hbefore : Blanks before)
    (rest : List Char) :
    record.read (before ++ (frame.fill value ++ rest)) =
      record.read (before ++ (frame.fill other ++ rest)) := by
  cases hframe with
  | @array front back others hfront hback =>
      have hread {value : List Char} (hvalue : IsValue value)
          (h : Yields record.readField value outcome) := by
        have hspaced : Element.Spaced ⟨front, value, back⟩ := ⟨hfront, hback⟩
        have hends := ends_blanks_append hback
          (ends_behindCommas (Or.inl rfl) (others.map Element.text) rest)
        exact record.readElements_append hspaced hvalue outcome (h [] _ blanks_nil hends)
      rw [Frame.fill, Frame.fill, record.read_arrayText hbefore, record.read_arrayText hbefore,
        List.map_cons, List.map_cons, inside, inside, List.append_assoc, List.append_assoc,
        hread hvalue h, hread hother hsame]
  | @object earlier later own hspaced hname hothers =>
      rcases List.forall_mem_append.mp hothers with ⟨hearlier, hlater⟩
      have hmembers (value : List Char) :
          ∀ member ∈ earlier ++ own.hold value :: later, member.Spaced := by
        refine List.forall_mem_append.mpr ⟨fun member hmem => (hearlier member hmem).spaced, ?_⟩
        exact List.forall_mem_cons.mpr ⟨Member.spaced_hold hspaced value,
          fun member hmem => (hlater member hmem).spaced⟩
      have hends (members : List Member) :
          Ends (behindCommas (members.map Member.text) ++ '}' :: rest) :=
        ends_behindCommas (Or.inr rfl) (members.map Member.text) rest
      rw [Frame.fill, Frame.fill, record.read_objectText hbefore blanks_nil (hmembers value),
        record.read_objectText hbefore blanks_nil (hmembers other)]
      simp only [List.map_append, behindCommas_append, List.append_assoc]
      refine record.readMembers_behind hfield hearlier (hends (_ :: later)) (hends (_ :: later))
        (fun found => ?_) none
      simp only [List.map_cons, behindCommas_cons, List.cons_append, List.append_assoc]
      rw [record.readMembers_hold hspaced hname h found (hends later),
        record.readMembers_hold hspaced hname hsame found (hends later)]

variable {text : String}

/-- A text that is read as an array of one element is read like the element. -/
theorem complete_asArray (h : IsText text) (hfield : ∀ {value : List Char}, IsValue value →
    Decided record.readField value) :
    complete record.read (asArray text) = complete record.readField text := by
  rcases h with ⟨element, hspaced, hvalue, htext⟩
  rcases (hfield hvalue).exists_yields with ⟨outcome, hyields⟩
  rw [hyields.complete_eq hspaced htext,
    (record.yields_arrayText hspaced hvalue hyields).complete_of_toList (toList_asArray htext)]

/-- So is a text that is read as an object whose only member is the field. -/
theorem complete_asObject (hname : Spells record.field.toList record.field.toList)
    (h : IsText text) (hfield : ∀ {value : List Char}, IsValue value →
    Decided record.readField value) :
    complete record.read (asObject record.field text) = complete record.readField text := by
  rcases h with ⟨element, hspaced, hvalue, htext⟩
  rcases (hfield hvalue).exists_yields with ⟨outcome, hyields⟩
  have hmember : Member.Spaced ⟨[], record.field.toList, [], element⟩ :=
    ⟨blanks_nil, blanks_nil, hspaced⟩
  have hobject := record.yields_objectText hmember hname hyields
  rw [hyields.complete_eq hspaced htext,
    hobject.complete_of_toList (toList_asObject record.field htext)]

end Record

end TreeQuery.Json
