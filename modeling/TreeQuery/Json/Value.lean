import TreeQuery.Json.Number

/-!
# Skipping values

A value whose content does not matter is read all the same, because where it ends
and whether the text is well formed can only be known by reading it. It may be
nested to any depth. The brackets that are still open are kept in a list, so that
the depth of a text is not the depth of a recursion.

The reader is at one of two places. Either a value comes next, or one has just
ended and the innermost open bracket decides what may follow: a comma and the next
element, or the bracket that closes it. When no bracket is open the value is
complete.

## Main definitions

* `Bracket`: What is open around the reader.
* `Place`: Whether a value comes next or has just ended.
* `skipNested`: Read on until no bracket is open.
* `skipValue`: Read a value of any kind.

## Theorems

* `length_skipValue_le`: What follows a value is no longer than what there was.
-/

namespace TreeQuery.Json

/-- Read a value that contains no others: a string, a number, or one of the three words. -/
def skipScalar (text : List Char) : Except Fault (List Char) :=
  match text with
  | [] => .error .ended
  | c :: rest =>
    if c = '"' then skipText rest
    else if c = 'n' then skipWord ['u', 'l', 'l'] rest
    else if c = 't' then skipWord ['r', 'u', 'e'] rest
    else if c = 'f' then skipWord ['a', 'l', 's', 'e'] rest
    else if opensNumber c then skipNumber (c :: rest)
    else .error .malformed

def skipColon (text : List Char) : Except Fault (List Char) :=
  match skipBlanks text with
  | [] => .error .ended
  | c :: rest => if c = ':' then .ok rest else .error .malformed

/-- Read the name of a member and the colon behind it, without looking at the name. -/
def skipName (text : List Char) : Except Fault (List Char) :=
  match skipBlanks text with
  | [] => .error .ended
  | c :: rest =>
    if c = '"' then
      match skipText rest with
      | .error fault => .error fault
      | .ok after => skipColon after
    else .error .malformed

theorem length_of_skipBlanks_eq_cons {text rest : List Char} {c : Char}
    (h : skipBlanks text = c :: rest) : rest.length < text.length := by
  have := length_skipBlanks_le text
  rw [h] at this
  simp only [List.length_cons] at this
  omega

theorem length_skipScalar_lt {text rest : List Char} (h : skipScalar text = .ok rest) :
    rest.length < text.length := by
  unfold skipScalar at h
  split at h
  · exact absurd h (by simp)
  next c tail =>
    split at h
    · have := length_skipText_lt h
      simp only [List.length_cons]
      omega
    split at h
    · have := length_skipWord h
      simp only [List.length_cons] at this ⊢
      omega
    split at h
    · have := length_skipWord h
      simp only [List.length_cons] at this ⊢
      omega
    split at h
    · have := length_skipWord h
      simp only [List.length_cons] at this ⊢
      omega
    split at h
    · exact length_skipNumber_lt h
    · exact absurd h (by simp)

theorem length_skipColon_lt {text rest : List Char} (h : skipColon text = .ok rest) :
    rest.length < text.length := by
  unfold skipColon at h
  split at h
  · exact absurd h (by simp)
  next c tail blanks =>
    split at h
    · simp only [Except.ok.injEq] at h
      rw [← h]
      exact length_of_skipBlanks_eq_cons blanks
    · exact absurd h (by simp)

theorem length_skipName_lt {text rest : List Char} (h : skipName text = .ok rest) :
    rest.length < text.length := by
  unfold skipName at h
  split at h
  · exact absurd h (by simp)
  next c tail blanks =>
    have first := length_of_skipBlanks_eq_cons blanks
    split at h
    · split at h
      · exact absurd h (by simp)
      next after name =>
        have second := length_skipText_lt name
        have third := length_skipColon_lt h
        omega
    · exact absurd h (by simp)

/-- What is open around the reader. -/
inductive Bracket where
  | array | object
  deriving DecidableEq

/-- Where the reader is. -/
inductive Place where
  /-- A value comes next. -/
  | before
  /-- A value has just ended. -/
  | behind
  deriving DecidableEq

def skipNested (place : Place) (opened : List Bracket) (text : List Char) :
    Except Fault (List Char) :=
  match place with
  | .before =>
    match _blanks : skipBlanks text with
    | [] => .error .ended
    | c :: rest =>
      if c = '[' then
        match _inner : skipBlanks rest with
        | [] => .error .ended
        | d :: after =>
          if d = ']' then skipNested .behind opened after
          else skipNested .before (.array :: opened) rest
      else if c = '{' then
        match _inner : skipBlanks rest with
        | [] => .error .ended
        | d :: after =>
          if d = '}' then skipNested .behind opened after
          else
            match _name : skipName rest with
            | .error fault => .error fault
            | .ok after => skipNested .before (.object :: opened) after
      else
        match _scalar : skipScalar (c :: rest) with
        | .error fault => .error fault
        | .ok after => skipNested .behind opened after
  | .behind =>
    match opened with
    | [] => .ok text
    | .array :: outer =>
      match _blanks : skipBlanks text with
      | [] => .error .ended
      | c :: rest =>
        if c = ',' then skipNested .before (.array :: outer) rest
        else if c = ']' then skipNested .behind outer rest
        else .error .malformed
    | .object :: outer =>
      match _blanks : skipBlanks text with
      | [] => .error .ended
      | c :: rest =>
        if c = ',' then
          match _name : skipName rest with
          | .error fault => .error fault
          | .ok after => skipNested .before (.object :: outer) after
        else if c = '}' then skipNested .behind outer rest
        else .error .malformed
termination_by text.length
decreasing_by
  · have := length_of_skipBlanks_eq_cons _blanks
    have := length_of_skipBlanks_eq_cons _inner
    omega
  · exact length_of_skipBlanks_eq_cons _blanks
  · have := length_of_skipBlanks_eq_cons _blanks
    have := length_of_skipBlanks_eq_cons _inner
    omega
  · have := length_of_skipBlanks_eq_cons _blanks
    have := length_skipName_lt _name
    omega
  · have := length_of_skipBlanks_eq_cons _blanks
    have := length_skipScalar_lt _scalar
    simp only [List.length_cons] at this
    omega
  · exact length_of_skipBlanks_eq_cons _blanks
  · exact length_of_skipBlanks_eq_cons _blanks
  · have := length_of_skipBlanks_eq_cons _blanks
    have := length_skipName_lt _name
    omega
  · exact length_of_skipBlanks_eq_cons _blanks

theorem length_skipNested_le {place : Place} {opened : List Bracket} {text rest : List Char}
    (h : skipNested place opened text = .ok rest) : rest.length ≤ text.length := by
  fun_induction skipNested place opened text with
  | case1 | case2 | case5 | case7 | case9 | case12 | case15 | case16 | case17 | case20 =>
      exact absurd h (by simp)
  | case3 =>
      rename_i outer inner ih
      have := length_of_skipBlanks_eq_cons outer
      have := length_of_skipBlanks_eq_cons inner
      have := ih h
      omega
  | case6 =>
      rename_i outer _ inner ih
      have := length_of_skipBlanks_eq_cons outer
      have := length_of_skipBlanks_eq_cons inner
      have := ih h
      omega
  | case4 =>
      rename_i outer ih
      have := length_of_skipBlanks_eq_cons outer
      have := ih h
      omega
  | case8 =>
      rename_i name outer _ ih
      have := length_of_skipBlanks_eq_cons outer
      have := length_skipName_lt name
      have := ih h
      omega
  | case10 =>
      rename_i outer _ _ _ scalar ih
      have := length_of_skipBlanks_eq_cons outer
      have read := length_skipScalar_lt scalar
      have := ih h
      simp only [List.length_cons] at read
      omega
  | case11 => simp_all
  | case13 =>
      rename_i blanks ih
      have := length_of_skipBlanks_eq_cons blanks
      have := ih h
      omega
  | case14 | case19 =>
      rename_i blanks _ ih
      have := length_of_skipBlanks_eq_cons blanks
      have := ih h
      omega
  | case18 =>
      rename_i name blanks ih
      have := length_of_skipBlanks_eq_cons blanks
      have := length_skipName_lt name
      have := ih h
      omega

/-- Read a value of any kind, and the blanks in front of it. -/
def skipValue (text : List Char) : Except Fault (List Char) :=
  skipNested .before [] text

theorem length_skipValue_le {text rest : List Char} (h : skipValue text = .ok rest) :
    rest.length ≤ text.length :=
  length_skipNested_le h

end TreeQuery.Json
