import TreeQuery.Json.Number

/-!
# The grammar of JSON

What a text in JSON looks like, said by how it is put together. Nothing here reads a
text. A value is a word, a string, a number, or brackets around other values, and all
of it is a list of characters without a bound on its length or depth.

A string has two descriptions. `IsContent` is the one of the format: escapes by number
may be any four digits. `Spells` is the one of a reader who wants to know what a string
says: half of a character says nothing, so escapes by number that are halves come in
pairs there. What spells something is content, and the converse fails exactly for a
half that stands alone.

Brackets hold their parts with a comma in front of every part but the first, and only
brackets without any parts hold blanks of their own. Everywhere else the blanks belong
to the part that they stand next to.

## Main definitions

* `Blanks`: Text that may stand between the parts of a value.
* `IsContent`, `Spells`: What stands between the quotes of a string, and what it says.
* `IsNumber`: The numbers.
* `Element`, `Member`: The parts of arrays and objects, with the blanks around them.
* `arrayText`, `objectText`: Arrays and objects, from their parts.
* `IsValue`: The values.
* `Ends`: Text that does not continue a number in front of it.

## Theorems

* `Spells.isContent`: What spells something is content.
* `exists_cons_of_isValue`: How a value begins.
* `ends_cons`, `ends_blanks_append`, `ends_of_blanks`, `ends_behindCommas`: What may stand
  behind a value.
-/

namespace TreeQuery.Json

/-- Text that may stand between the parts of a value. -/
def Blanks (text : List Char) : Prop :=
  ∀ c ∈ text, c = ' ' ∨ c = '\t' ∨ c = '\n' ∨ c = '\r'

/-- The letters that may stand behind a backslash, and the characters that they stand for there. -/
def escapes : List (Char × Char) :=
  [('"', '"'), ('\\', '\\'), ('/', '/'), ('b', '\x08'), ('f', '\x0c'), ('n', '\n'), ('r', '\r'),
   ('t', '\t')]

/-- The hexadecimal digits of either case, and their values. -/
def hexDigits : List (Char × Nat) :=
  ['0', '1', '2', '3', '4', '5', '6', '7', '8', '9', 'a', 'b', 'c', 'd', 'e', 'f'].zipIdx ++
    ['A', 'B', 'C', 'D', 'E', 'F'].zipIdx 10

/-- Four hexadecimal digits, and the number that they write. -/
inductive IsHex : List Char → Nat → Prop
  | digits {a b c d : Char} {w x y z : Nat} (ha : (a, w) ∈ hexDigits) (hb : (b, x) ∈ hexDigits)
      (hc : (c, y) ∈ hexDigits) (hd : (d, z) ∈ hexDigits) :
      IsHex [a, b, c, d] (16 * (16 * (16 * w + x) + y) + z)

/-- A character that stands for itself between quotes. -/
structure Plain (c : Char) : Prop where
  not_quote : c ≠ '"'
  not_backslash : c ≠ '\\'
  not_control : 0x20 ≤ c.toNat

/-- One piece of what stands between quotes: a character or an escape. -/
inductive IsPiece : List Char → Prop
  | plain {c : Char} (hplain : Plain c) : IsPiece [c]
  | letter {letter c : Char} (hletter : (letter, c) ∈ escapes) : IsPiece ['\\', letter]
  | number {digits : List Char} {n : Nat} (hnumber : IsHex digits n) :
      IsPiece ('\\' :: 'u' :: digits)

/-- What may stand between the quotes of a string. -/
inductive IsContent : List Char → Prop
  | nil : IsContent []
  | cons {piece rest : List Char} (hpiece : IsPiece piece) (hrest : IsContent rest) :
      IsContent (piece ++ rest)

/-- The ways to write one character between quotes. One that is beyond the first plane is written by
    number as two halves. -/
inductive SpellsChar : List Char → Char → Prop
  | plain {c : Char} (hplain : Plain c) : SpellsChar [c] c
  | letter {letter c : Char} (hletter : (letter, c) ∈ escapes) : SpellsChar ['\\', letter] c
  | number {digits : List Char} {n : Nat} (hnumber : IsHex digits n) (hlow : isLowHalf n = false)
      (hhigh : isHighHalf n = false) : SpellsChar ('\\' :: 'u' :: digits) (Char.ofNat n)
  | halves {digits digits' : List Char} {high low : Nat} (hnumber : IsHex digits high)
      (hhigh : isHighHalf high = true) (hnumber' : IsHex digits' low)
      (hlow : isLowHalf low = true) :
      SpellsChar ('\\' :: 'u' :: (digits ++ '\\' :: 'u' :: digits')) (joinHalves high low)

/-- What stands between quotes, and what it says. -/
inductive Spells : List Char → List Char → Prop
  | nil : Spells [] []
  | cons {piece rest : List Char} {c : Char} {cs : List Char} (hpiece : SpellsChar piece c)
      (hrest : Spells rest cs) : Spells (piece ++ rest) (c :: cs)

def IsDigits (text : List Char) : Prop :=
  text ≠ [] ∧ ∀ c ∈ text, isDigit c = true

def IsSign (text : List Char) : Prop :=
  text = [] ∨ text = ['-']

/-- The digits in front of the point. A zero is the only one of them, or not the first. -/
def IsWhole (text : List Char) : Prop :=
  IsDigits text ∧ (text.head? = some '0' → text = ['0'])

def IsFraction (text : List Char) : Prop :=
  text = [] ∨ ∃ digits, IsDigits digits ∧ text = '.' :: digits

def IsExponent (text : List Char) : Prop :=
  text = [] ∨ ∃ letter sign digits, (letter = 'e' ∨ letter = 'E') ∧
    (sign = [] ∨ sign = ['+'] ∨ sign = ['-']) ∧ IsDigits digits ∧ text = letter :: (sign ++ digits)

/-- A number as it is written. -/
inductive IsNumber : List Char → Prop
  | parts {sign whole fraction exponent : List Char} (hsign : IsSign sign) (hwhole : IsWhole whole)
      (hfraction : IsFraction fraction) (hexponent : IsExponent exponent) :
      IsNumber (sign ++ (whole ++ (fraction ++ exponent)))

/-- A value and the blanks around it. -/
structure Element where
  before : List Char
  value : List Char
  after : List Char

namespace Element

def text (element : Element) : List Char :=
  element.before ++ (element.value ++ element.after)

theorem text_append (element : Element) (rest : List Char) :
    element.text ++ rest = element.before ++ (element.value ++ (element.after ++ rest)) := by
  rw [text, List.append_assoc, List.append_assoc]

/-- Around the value stand only blanks. -/
structure Spaced (element : Element) : Prop where
  before : Blanks element.before
  after : Blanks element.after

end Element

/-- A member of an object: its name, which stands between quotes, and behind a colon its value. -/
structure Member where
  before : List Char
  /-- What stands between the quotes. -/
  name : List Char
  after : List Char
  element : Element

namespace Member

def text (member : Member) : List Char :=
  member.before ++ '"' :: (member.name ++ '"' :: (member.after ++ ':' :: member.element.text))

theorem text_append (member : Member) (rest : List Char) :
    member.text ++ rest = member.before ++ '"' :: (member.name ++ '"' ::
      (member.after ++ ':' :: (member.element.text ++ rest))) := by
  simp only [text, List.append_assoc, List.cons_append]

/-- Around the name and the value stand only blanks. -/
structure Spaced (member : Member) : Prop where
  before : Blanks member.before
  after : Blanks member.after
  element : member.element.Spaced

end Member

/-- A member without blanks. -/
def Member.tight (name : String) (value : List Char) : Member :=
  ⟨[], name.toList, [], ⟨[], value, []⟩⟩

/-- Texts one behind the other, each behind a comma. -/
def behindCommas (parts : List (List Char)) : List Char :=
  parts.flatMap fun part => ',' :: part

/-- What stands inside brackets: the parts, each but the first behind a comma, or blanks if there
    are no parts. -/
def inside (gap : List Char) : List (List Char) → List Char
  | [] => gap
  | first :: others => first ++ behindCommas others

def arrayText (gap : List Char) (elements : List Element) : List Char :=
  '[' :: (inside gap (elements.map Element.text) ++ [']'])

def objectText (gap : List Char) (members : List Member) : List Char :=
  '{' :: (inside gap (members.map Member.text) ++ ['}'])

def nullWord : List Char := ['n', 'u', 'l', 'l']

def trueWord : List Char := ['t', 'r', 'u', 'e']

def falseWord : List Char := ['f', 'a', 'l', 's', 'e']

/-- A value, nested to any depth. -/
inductive IsValue : List Char → Prop
  | null : IsValue nullWord
  | yes : IsValue trueWord
  | no : IsValue falseWord
  | text {content : List Char} (hcontent : IsContent content) : IsValue ('"' :: (content ++ ['"']))
  | number {digits : List Char} (hnumber : IsNumber digits) : IsValue digits
  | array {gap : List Char} {elements : List Element} (hgap : Blanks gap)
      (hspaced : ∀ element ∈ elements, element.Spaced)
      (hvalues : ∀ element ∈ elements, IsValue element.value) : IsValue (arrayText gap elements)
  | object {gap : List Char} {members : List Member} (hgap : Blanks gap)
      (hspaced : ∀ member ∈ members, member.Spaced)
      (hnames : ∀ member ∈ members, IsContent member.name)
      (hvalues : ∀ member ∈ members, IsValue member.element.value) :
      IsValue (objectText gap members)

/-- A member of an object, as the grammar has it. -/
structure Member.WellFormed (member : Member) : Prop where
  spaced : member.Spaced
  name : IsContent member.name
  value : IsValue member.element.value

/-- Text that does not continue a number in front of it. -/
def Ends (text : List Char) : Prop :=
  ∀ c rest, text = c :: rest → isDigit c = false ∧ c ≠ '.' ∧ c ≠ 'e' ∧ c ≠ 'E'

theorem isValue_objectText {gap : List Char} {members : List Member} (hgap : Blanks gap)
    (h : ∀ member ∈ members, member.WellFormed) : IsValue (objectText gap members) :=
  IsValue.object hgap (fun member hmem => (h member hmem).spaced)
    (fun member hmem => (h member hmem).name) fun member hmem => (h member hmem).value

theorem Spells.isContent {content cs : List Char} (h : Spells content cs) : IsContent content := by
  induction h with
  | nil => exact IsContent.nil
  | cons hpiece _ ih =>
      cases hpiece with
      | plain hplain => exact IsContent.cons (IsPiece.plain hplain) ih
      | letter hletter => exact IsContent.cons (IsPiece.letter hletter) ih
      | number hnumber => exact IsContent.cons (IsPiece.number hnumber) ih
      | halves hnumber _ hnumber' _ =>
          have hlow := IsContent.cons (IsPiece.number hnumber') ih
          have hboth := IsContent.cons (IsPiece.number hnumber) hlow
          simpa only [List.append_assoc, List.cons_append] using hboth

instance (c : Char) : Decidable (Plain c) :=
  decidable_of_iff (c ≠ '"' ∧ c ≠ '\\' ∧ 0x20 ≤ c.toNat)
    ⟨fun h => ⟨h.1, h.2.1, h.2.2⟩, fun h => ⟨h.not_quote, h.not_backslash, h.not_control⟩⟩

/-- Characters that need no escape spell themselves. -/
theorem spells_of_plain {cs : List Char} (h : (cs.all fun c => decide (Plain c)) = true) :
    Spells cs cs := by
  induction cs with
  | nil => exact Spells.nil
  | cons c others ih =>
      rw [List.all_cons, Bool.and_eq_true, decide_eq_true_iff] at h
      exact Spells.cons (SpellsChar.plain h.1) (ih h.2)

theorem Member.spaced_tight (name : String) (value : List Char) : (tight name value).Spaced :=
  ⟨List.forall_mem_nil _, List.forall_mem_nil _, ⟨List.forall_mem_nil _, List.forall_mem_nil _⟩⟩

theorem behindCommas_nil : behindCommas [] = [] :=
  rfl

theorem behindCommas_cons (part : List Char) (others : List (List Char)) :
    behindCommas (part :: others) = ',' :: (part ++ behindCommas others) :=
  rfl

theorem behindCommas_append (first second : List (List Char)) :
    behindCommas (first ++ second) = behindCommas first ++ behindCommas second :=
  List.flatMap_append

theorem inside_singleton (gap part : List Char) : inside gap [part] = part :=
  List.append_nil part

theorem quoted_append (content rest : List Char) :
    '"' :: (content ++ ['"']) ++ rest = '"' :: (content ++ '"' :: rest) := by
  rw [List.cons_append, List.append_assoc, List.singleton_append]

theorem arrayText_append (gap : List Char) (elements : List Element) (rest : List Char) :
    arrayText gap elements ++ rest =
      '[' :: (inside gap (elements.map Element.text) ++ ']' :: rest) := by
  rw [arrayText, List.cons_append, List.append_assoc, List.singleton_append]

theorem objectText_append (gap : List Char) (members : List Member) (rest : List Char) :
    objectText gap members ++ rest =
      '{' :: (inside gap (members.map Member.text) ++ '}' :: rest) := by
  rw [objectText, List.cons_append, List.append_assoc, List.singleton_append]

theorem blanks_nil : Blanks [] :=
  List.forall_mem_nil _

theorem blanks_append {left right : List Char} (hleft : Blanks left) (hright : Blanks right) :
    Blanks (left ++ right) :=
  List.forall_mem_append.mpr ⟨hleft, hright⟩

theorem isBlank_eq_true_iff {c : Char} :
    isBlank c = true ↔ c = ' ' ∨ c = '\t' ∨ c = '\n' ∨ c = '\r' := by
  simp only [isBlank, Bool.or_eq_true, beq_iff_eq, or_assoc]

theorem IsNumber.exists_cons {digits : List Char} (h : IsNumber digits) :
    ∃ c rest, digits = c :: rest ∧ opensNumber c = true := by
  cases h with
  | @parts sign whole fraction exponent hsign hwhole _ _ =>
      rcases List.exists_cons_of_ne_nil hwhole.1.1 with ⟨first, others, rfl⟩
      have hfirst := hwhole.1.2 first List.mem_cons_self
      rcases hsign with rfl | rfl
      · exact ⟨first, _, rfl, Bool.or_eq_true_iff.mpr (Or.inr hfirst)⟩
      · exact ⟨'-', _, rfl, rfl⟩

theorem ne_of_opensNumber {c d : Char} (h : opensNumber c = true) (hd : opensNumber d = false) :
    c ≠ d := by
  rintro rfl
  rw [h] at hd
  exact Bool.false_ne_true hd.symm

theorem not_isBlank_of_opensNumber {c : Char} (h : opensNumber c = true) : isBlank c = false := by
  refine eq_false_of_ne_true fun hblank => ?_
  rcases isBlank_eq_true_iff.mp hblank with rfl | rfl | rfl | rfl <;> exact absurd h (by decide)

-- Nothing that closes a bracket begins a value, so a reader can tell whether there are parts.
theorem exists_cons_of_isValue {value : List Char} (h : IsValue value) :
    ∃ c rest, value = c :: rest ∧ isBlank c = false ∧ c ≠ ']' := by
  cases h with
  | null | yes | no | text | array | object => exact ⟨_, _, rfl, rfl, by decide⟩
  | number hnumber =>
      rcases hnumber.exists_cons with ⟨c, rest, hdigits, hc⟩
      exact ⟨c, rest, hdigits, not_isBlank_of_opensNumber hc, ne_of_opensNumber hc rfl⟩

theorem ends_cons {c : Char} (h : c = ',' ∨ c = ']' ∨ c = '}') (rest : List Char) :
    Ends (c :: rest) := by
  intro d tail heq
  rw [← (List.cons.inj heq).1]
  rcases h with rfl | rfl | rfl <;> decide

theorem ends_blanks_append {gap text : List Char} (hgap : Blanks gap) (h : Ends text) :
    Ends (gap ++ text) := by
  cases gap with
  | nil => exact h
  | cons c others =>
      intro d tail heq
      rw [← (List.cons.inj heq).1]
      rcases hgap c List.mem_cons_self with rfl | rfl | rfl | rfl <;> decide

theorem ends_of_blanks {gap : List Char} (hgap : Blanks gap) : Ends gap := by
  have hnil : Ends [] := fun _ _ heq => by cases heq
  have hends := ends_blanks_append hgap hnil
  rwa [List.append_nil] at hends

/-- Behind a value inside brackets there are more parts or the bracket is closed. -/
theorem ends_behindCommas {c : Char} (h : c = ']' ∨ c = '}') (parts : List (List Char))
    (rest : List Char) : Ends (behindCommas parts ++ c :: rest) := by
  cases parts with
  | nil => exact ends_cons (Or.inr h) rest
  | cons part others => exact ends_cons (Or.inl rfl) _

end TreeQuery.Json
