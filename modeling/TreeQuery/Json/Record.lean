import TreeQuery.Json.Unexpected

/-!
# Records with one field

The reader of an object of which one member matters. The same record may be
written as an array, which holds the values of its fields in their order; here
that is at most one. A field that is missing has a value of its own.

What happens to other members is part of the description of a record. Either they
are skipped, and may hold anything that is well formed. Or there must be none, and
the name of one is enough to refuse it: its value is not looked at.

Both forms share the reader of the field, and it is called at the same place of
the text in both. It has to promise that it does not return more than it was
given, so that reading the members comes to an end.

## Main definitions

* `Record`: The description of a record.
* `Record.read`: Read a record in either form.
* `Record.readMembers`, `Record.readElements`: Read what is inside the brackets.
* `complete`: Read a text to its end.

## Theorems

* `Record.length_read_le`: A record returns no more than it was given.
-/

namespace TreeQuery.Json

/-- The description of a record with one field. -/
structure Record (α : Type) where
  field : String
  /-- Whether other members are refused. -/
  closed : Bool
  title : String
  /-- The value of the field if it is missing. -/
  missing : α
  /-- The reader of the field. -/
  readField : List Char → Except Fault (α × List Char)
  /-- The reader returns no more than it was given. -/
  length_readField_le : ∀ {text value rest},
    readField text = .ok (value, rest) → rest.length ≤ text.length

def readName (text : List Char) : Except Fault (String × List Char) :=
  match skipBlanks text with
  | [] => .error .ended
  | c :: rest => if c = '"' then readText rest else .error .malformed

/-- Read up to the name of the next member, or to the end of the object, for which there is no name.
    Every member but the first has a comma in front of it. -/
def nextName (first : Bool) (text : List Char) : Except Fault (Option String × List Char) :=
  match skipBlanks text with
  | [] => .error .ended
  | c :: rest =>
    if c = '}' then .ok (none, rest)
    else
      let place := if first then some (c :: rest) else if c = ',' then some rest else none
      match place with
      | none => .error .malformed
      | some place =>
        match readName place with
        | .error fault => .error fault
        | .ok (name, after) => .ok (some name, after)

theorem length_readName_lt {text rest : List Char} {name : String}
    (h : readName text = .ok (name, rest)) : rest.length < text.length := by
  unfold readName at h
  split at h
  · exact absurd h (by simp)
  next c tail blanks =>
    have := length_of_skipBlanks_eq_cons blanks
    split at h
    · have := length_readText_lt h
      omega
    · exact absurd h (by simp)

theorem length_nextName_lt {first : Bool} {text rest : List Char} {name : Option String}
    (h : nextName first text = .ok (name, rest)) : rest.length < text.length := by
  unfold nextName at h
  split at h
  · exact absurd h (by simp)
  next c tail blanks =>
    have outer := length_skipBlanks_le text
    rw [blanks] at outer
    simp only [List.length_cons] at outer
    split at h
    · simp only [Except.ok.injEq, Prod.mk.injEq] at h
      rw [← h.2]
      omega
    · dsimp only at h
      split at h
      · exact absurd h (by simp)
      next place chosen =>
        have inside : place.length ≤ tail.length + 1 := by
          split at chosen
          · simp only [Option.some.injEq] at chosen
            simp [← chosen]
          · split at chosen
            · simp only [Option.some.injEq] at chosen
              rw [← chosen]
              omega
            · exact absurd chosen (by simp)
        split at h
        · exact absurd h (by simp)
        next read =>
          have := length_readName_lt read
          simp only [Except.ok.injEq, Prod.mk.injEq] at h
          rw [← h.2]
          omega

namespace Record

variable {α : Type}

/-- Read the members of an object up to the bracket that closes it. `found` is the value of the
    field, once it has been read. -/
def readMembers (record : Record α) (first : Bool) (found : Option α) (text : List Char) :
    Except Fault (α × List Char) :=
  match _next : nextName first text with
  | .error fault => .error fault
  | .ok (none, rest) => .ok (found.getD record.missing, rest)
  | .ok (some name, rest) =>
    if name = record.field then
      if found.isSome then .error (.mismatch (.duplicateField name))
      else
        match _colon : skipColon rest with
        | .error fault => .error fault
        | .ok behind =>
          match _value : record.readField behind with
          | .error fault => .error fault
          | .ok (value, after) => record.readMembers false (some value) after
    else if record.closed then .error (.mismatch (.unknownField name record.field))
    else
      match _colon : skipColon rest with
      | .error fault => .error fault
      | .ok behind =>
        match _value : skipValue behind with
        | .error fault => .error fault
        | .ok after => record.readMembers false found after
termination_by text.length
decreasing_by
  · have := length_nextName_lt _next
    have := length_skipColon_lt _colon
    have := record.length_readField_le _value
    omega
  · have := length_nextName_lt _next
    have := length_skipColon_lt _colon
    have := length_skipValue_le _value
    omega

/-- Read the elements of an array up to the bracket that closes it. There is room for one. -/
def readElements (record : Record α) (text : List Char) : Except Fault (α × List Char) :=
  match skipBlanks text with
  | [] => .error .ended
  | c :: rest =>
    if c = ']' then .ok (record.missing, rest)
    else
      match record.readField (c :: rest) with
      | .error fault => .error fault
      | .ok (value, after) =>
        match skipBlanks after with
        | [] => .error .ended
        | d :: last => if d = ']' then .ok (value, last) else .error .malformed

def read (record : Record α) (text : List Char) : Except Fault (α × List Char) :=
  match skipBlanks text with
  | [] => .error .ended
  | c :: rest =>
    if c = '[' then record.readElements rest
    else if c = '{' then record.readMembers true none rest
    else .error (unexpected record.title (c :: rest))

theorem length_readMembers_le (record : Record α) {first : Bool} {found : Option α}
    {text rest : List Char} {value : α}
    (h : record.readMembers first found text = .ok (value, rest)) :
    rest.length ≤ text.length := by
  fun_induction record.readMembers first found text with
  | case1 | case3 | case4 | case5 | case7 | case8 | case9 => exact absurd h (by simp)
  | case2 =>
      rename_i next
      have := length_nextName_lt next
      simp only [Except.ok.injEq, Prod.mk.injEq] at h
      rw [← h.2]
      omega
  | case6 =>
      rename_i colon _ _ read next ih
      have := length_nextName_lt next
      have := length_skipColon_lt colon
      have := record.length_readField_le read
      have := ih h
      omega
  | case10 =>
      rename_i next _ _ _ colon _ read ih
      have := length_nextName_lt next
      have := length_skipColon_lt colon
      have := length_skipValue_le read
      have := ih h
      omega

theorem length_readElements_le (record : Record α) {text rest : List Char} {value : α}
    (h : record.readElements text = .ok (value, rest)) : rest.length ≤ text.length := by
  unfold readElements at h
  split at h
  · exact absurd h (by simp)
  next c tail blanks =>
    have first := length_skipBlanks_le text
    rw [blanks] at first
    simp only [List.length_cons] at first
    split at h
    · simp only [Except.ok.injEq, Prod.mk.injEq] at h
      rw [← h.2]
      omega
    · split at h
      · exact absurd h (by simp)
      next value after read =>
        have second := record.length_readField_le read
        simp only [List.length_cons] at second
        split at h
        · exact absurd h (by simp)
        next closing =>
          have := length_of_skipBlanks_eq_cons closing
          split at h
          · simp only [Except.ok.injEq, Prod.mk.injEq] at h
            rw [← h.2]
            omega
          · exact absurd h (by simp)

/-- A record returns no more than it was given. -/
theorem length_read_le (record : Record α) {text rest : List Char} {value : α}
    (h : record.read text = .ok (value, rest)) : rest.length ≤ text.length := by
  unfold read at h
  split at h
  · exact absurd h (by simp)
  next c tail blanks =>
    have := length_of_skipBlanks_eq_cons blanks
    split at h
    · have := record.length_readElements_le h
      omega
    · split at h
      · have := record.length_readMembers_le h
        omega
      · exact absurd h (by simp)

end Record

/-- Read a text to its end: behind what the reader takes there may be blanks only. -/
def complete (reader : List Char → Except Fault (α × List Char)) (text : String) :
    Except Fault α :=
  match reader text.toList with
  | .error fault => .error fault
  | .ok (value, rest) => if (skipBlanks rest).isEmpty then .ok value else .error .malformed

end TreeQuery.Json
