import TreeQuery.Json.Fault

/-!
# Blanks, fixed words and strings

The small parts of a text in JSON, each read from the front of a list of
characters. A reader returns what follows the part that it has read.

A string can be read in two ways. Where its content matters, it is unescaped, and
escapes that stand for half a character have to come in pairs. Where it does not,
it is only skipped, and four hexadecimal digits are enough for any escape.

An escape by number must have four bytes of text left for its digits. If fewer
are left the text counts as ended, whatever they are; a letter that takes several
bytes counts with all of them.

## Main definitions

* `skipBlanks`: What follows the blanks.
* `skipWord`: Read a fixed word.
* `readText`: Read a string and unescape it.
* `skipText`: Read a string without looking at its content.

## Theorems

* `length_skipBlanks_le`, `length_skipWord`, `length_readText_lt`,
  `length_skipText_lt`: What follows is no longer than what there was.
-/

namespace TreeQuery.Json

/-- Whether a character may stand between the parts of a text. There are four of them. -/
def isBlank (c : Char) : Bool :=
  c == ' ' || c == '\t' || c == '\n' || c == '\r'

/-- What follows the blanks. -/
def skipBlanks (text : List Char) : List Char :=
  text.dropWhile isBlank

def skipWord : (word text : List Char) → Except Fault (List Char)
  | [], text => .ok text
  | _ :: _, [] => .error .ended
  | c :: word, d :: text => if c = d then skipWord word text else .error .malformed

/-- The value of a hexadecimal digit of either case. -/
def hexDigit? (c : Char) : Option Nat :=
  if '0' ≤ c ∧ c ≤ '9' then some (c.toNat - '0'.toNat)
  else if 'a' ≤ c ∧ c ≤ 'f' then some (c.toNat - 'a'.toNat + 10)
  else if 'A' ≤ c ∧ c ≤ 'F' then some (c.toNat - 'A'.toNat + 10)
  else none

def hexNumber? (a b c d : Char) : Option Nat := do
  pure (16 * (16 * (16 * (← hexDigit? a) + (← hexDigit? b)) + (← hexDigit? c)) + (← hexDigit? d))

def hasFourBytes (text : List Char) : Bool :=
  4 ≤ (text.take 4).foldl (fun bytes c => bytes + c.utf8Size) 0

def readHex (text : List Char) : Except Fault (Nat × List Char) :=
  if hasFourBytes text then
    match text with
    | a :: b :: c :: d :: rest =>
      match hexNumber? a b c d with
      | some n => .ok (n, rest)
      | none => .error .malformed
    | _ => .error .malformed
  else .error .ended

/-- Whether a number is the first half of a character beyond the first plane. -/
def isHighHalf (n : Nat) : Bool := 0xD800 ≤ n && n ≤ 0xDBFF

/-- Whether a number is the second half of a character beyond the first plane. -/
def isLowHalf (n : Nat) : Bool := 0xDC00 ≤ n && n ≤ 0xDFFF

def joinHalves (high low : Nat) : Char :=
  Char.ofNat (0x10000 + (high - 0xD800) * 0x400 + (low - 0xDC00))

/-- The character that a letter after a backslash stands for. -/
def escaped? : Char → Option Char
  | '"' => some '"'
  | '\\' => some '\\'
  | '/' => some '/'
  | 'b' => some '\x08'
  | 'f' => some '\x0c'
  | 'n' => some '\n'
  | 'r' => some '\r'
  | 't' => some '\t'
  | _ => none

/-- Read an escape by number, from its first digit. A first half needs its second half, written as
    another such escape, and a second half alone stands for nothing. -/
def readNumbered (text : List Char) : Except Fault (Char × List Char) :=
  match readHex text with
  | .error fault => .error fault
  | .ok (n, rest) =>
    if isLowHalf n then .error .malformed
    else if isHighHalf n then
      match rest with
      | [] => .error .ended
      | c :: rest =>
        if c = '\\' then
          match rest with
          | [] => .error .ended
          | c :: rest =>
            if c = 'u' then
              match readHex rest with
              | .error fault => .error fault
              | .ok (low, rest) =>
                if isLowHalf low then .ok (joinHalves n low, rest) else .error .malformed
            else .error .malformed
        else .error .malformed
    else .ok (Char.ofNat n, rest)

/-- Read an escape, from the character after the backslash. -/
def readEscape : List Char → Except Fault (Char × List Char)
  | [] => .error .ended
  | c :: rest =>
    if c = 'u' then readNumbered rest
    else
      match escaped? c with
      | some d => .ok (d, rest)
      | none => .error .malformed

def skipEscape : List Char → Except Fault (List Char)
  | [] => .error .ended
  | c :: rest =>
    if c = 'u' then
      match readHex rest with
      | .error fault => .error fault
      | .ok (_, rest) => .ok rest
    else if (escaped? c).isSome then .ok rest
    else .error .malformed

theorem length_skipBlanks_le (text : List Char) : (skipBlanks text).length ≤ text.length :=
  (List.dropWhile_sublist _).length_le

theorem length_skipWord {word text rest : List Char} (h : skipWord word text = .ok rest) :
    rest.length + word.length = text.length := by
  induction word generalizing text with
  | nil => simp_all [skipWord]
  | cons c word ih =>
      cases text with
      | nil => simp [skipWord] at h
      | cons d text =>
          simp only [skipWord] at h
          split at h
          · have := ih h
            simp only [List.length_cons]
            omega
          · exact absurd h (by simp)

theorem length_readHex {text rest : List Char} {n : Nat} (h : readHex text = .ok (n, rest)) :
    rest.length + 4 = text.length := by
  unfold readHex at h
  split at h
  · split at h
    · split at h
      · simp only [Except.ok.injEq, Prod.mk.injEq] at h
        simp [← h.2]
      · exact absurd h (by simp)
    · exact absurd h (by simp)
  · exact absurd h (by simp)

theorem length_readNumbered {text rest : List Char} {c : Char}
    (h : readNumbered text = .ok (c, rest)) : rest.length < text.length := by
  unfold readNumbered at h
  split at h
  · exact absurd h (by simp)
  next n after hex =>
    have first := length_readHex hex
    split at h
    · exact absurd h (by simp)
    · split at h
      · split at h
        · exact absurd h (by simp)
        · split at h
          · split at h
            · exact absurd h (by simp)
            · split at h
              · split at h
                · exact absurd h (by simp)
                next low last hex2 =>
                  have second := length_readHex hex2
                  split at h
                  · simp only [Except.ok.injEq, Prod.mk.injEq] at h
                    simp only [List.length_cons] at first second
                    rw [← h.2]
                    omega
                  · exact absurd h (by simp)
              · exact absurd h (by simp)
          · exact absurd h (by simp)
      · simp only [Except.ok.injEq, Prod.mk.injEq] at h
        rw [← h.2]
        omega

theorem length_readEscape_lt {text rest : List Char} {c : Char}
    (h : readEscape text = .ok (c, rest)) : rest.length < text.length := by
  cases text with
  | nil => exact absurd h (by simp [readEscape])
  | cons d text =>
      simp only [readEscape] at h
      split at h
      · have := length_readNumbered h
        simp only [List.length_cons]
        omega
      · split at h
        · simp only [Except.ok.injEq, Prod.mk.injEq] at h
          simp [← h.2]
        · exact absurd h (by simp)

theorem length_skipEscape_lt {text rest : List Char} (h : skipEscape text = .ok rest) :
    rest.length < text.length := by
  cases text with
  | nil => exact absurd h (by simp [skipEscape])
  | cons d text =>
      simp only [skipEscape] at h
      split at h
      · split at h
        · exact absurd h (by simp)
        next n after hex =>
          have := length_readHex hex
          simp only [Except.ok.injEq] at h
          simp only [List.length_cons]
          rw [← h]
          omega
      · split at h
        · simp only [Except.ok.injEq] at h
          simp [← h]
        · exact absurd h (by simp)

/-- Read the rest of a string, behind its opening quote. The first argument holds the characters
    read so far, the last one first. -/
def readTextFrom (read : List Char) (text : List Char) : Except Fault (String × List Char) :=
  match text with
  | [] => .error .ended
  | c :: rest =>
    if c = '"' then .ok (String.ofList read.reverse, rest)
    else if c = '\\' then
      match _h : readEscape rest with
      | .error fault => .error fault
      | .ok (d, after) => readTextFrom (d :: read) after
    else if c.toNat < 0x20 then .error .malformed
    else readTextFrom (c :: read) rest
termination_by text.length
decreasing_by
  · have := length_readEscape_lt _h
    simp only [List.length_cons]
    omega
  · simp

/-- Read a string and unescape it, from behind its opening quote. -/
def readText (text : List Char) : Except Fault (String × List Char) :=
  readTextFrom [] text

/-- Read a string without looking at its content, from behind its opening quote. -/
def skipText (text : List Char) : Except Fault (List Char) :=
  match text with
  | [] => .error .ended
  | c :: rest =>
    if c = '"' then .ok rest
    else if c = '\\' then
      match _h : skipEscape rest with
      | .error fault => .error fault
      | .ok after => skipText after
    else if c.toNat < 0x20 then .error .malformed
    else skipText rest
termination_by text.length
decreasing_by
  · have := length_skipEscape_lt _h
    simp only [List.length_cons]
    omega
  · simp

theorem length_readTextFrom_lt (read text : List Char) {value : String} {rest : List Char}
    (h : readTextFrom read text = .ok (value, rest)) : rest.length < text.length := by
  fun_induction readTextFrom read text with
  | case1 => exact absurd h (by simp)
  | case2 read rest' =>
      simp only [Except.ok.injEq, Prod.mk.injEq] at h
      simp [← h.2]
  | case3 => exact absurd h (by simp)
  | case4 =>
      rename_i escape _ ih
      have := length_readEscape_lt escape
      have := ih h
      simp only [List.length_cons]
      omega
  | case5 => exact absurd h (by simp)
  | case6 read c rest' _ _ _ ih =>
      have := ih h
      simp only [List.length_cons]
      omega

theorem length_readText_lt {text rest : List Char} {value : String}
    (h : readText text = .ok (value, rest)) : rest.length < text.length :=
  length_readTextFrom_lt [] text h

theorem length_skipText_lt {text rest : List Char} (h : skipText text = .ok rest) :
    rest.length < text.length := by
  fun_induction skipText text with
  | case1 => exact absurd h (by simp)
  | case2 rest' =>
      simp only [Except.ok.injEq] at h
      simp [← h]
  | case3 => exact absurd h (by simp)
  | case4 =>
      rename_i escape _ ih
      have := length_skipEscape_lt escape
      have := ih h
      simp only [List.length_cons]
      omega
  | case5 => exact absurd h (by simp)
  | case6 c rest' _ _ _ ih =>
      have := ih h
      simp only [List.length_cons]
      omega

end TreeQuery.Json
