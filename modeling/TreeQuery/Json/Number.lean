import TreeQuery.Json.Token

/-!
# Numbers

A number is an optional minus sign, digits without a needless leading zero, an
optional fraction and an optional exponent. Taking it apart is one thing and
finding its value another: a number that is skipped may be as large as it likes.

What a broken number counts as depends on why it is read. Where its value matters,
a number that stops where a digit has to follow ends the text too early. Where it
is skipped, it is malformed. The reader takes the answer as an argument.

The value of a number without fraction and exponent is an integer if it fits into
64 bits, with or without sign; minus zero does not count as one. Any other number
is rounded, and the way there decides the last digit. The leading digits that fit
into 64 bits make an integer, each digit behind them only scales, and the scaling
is done with rounded powers of ten. Digits are tried again behind the point, so
that a small one may still fit where a greater one did not.

## Main definitions

* `Numeral`: The parts of a number as it is written.
* `Numeral.read`: Take a number apart.
* `Numeral.value`: The value of a number.
* `skipNumber`: Read a number without looking at its value.

## Theorems

* `length_read_lt`: A number takes at least one character.
-/

namespace TreeQuery.Json

def isDigit (c : Char) : Bool :=
  '0' ≤ c && c ≤ '9'

/-- The parts of a number as it is written. -/
structure Numeral where
  negative : Bool
  whole : List Char
  /-- The digits behind the point, none if there is no point. -/
  fraction : List Char
  /-- Whether the exponent has a minus sign, and its digits. -/
  exponent : Option (Bool × List Char)

namespace Numeral

/-- Read the digits that have to follow, and answer `atEnd` if the text ends instead. -/
def digits (atEnd : Fault) (text : List Char) : Except Fault (List Char × List Char) :=
  match text with
  | [] => .error atEnd
  | c :: _ =>
    if isDigit c then .ok (text.takeWhile isDigit, text.dropWhile isDigit)
    else .error .malformed

/-- Read the digits before the point. A zero in front of other digits is not allowed. -/
def readWhole (atEnd : Fault) (text : List Char) : Except Fault (List Char × List Char) :=
  match digits atEnd text with
  | .error fault => .error fault
  | .ok (whole, rest) =>
    if whole.head? == some '0' && whole.length != 1 then .error .malformed else .ok (whole, rest)

/-- Read the point and the digits behind it, if there is one. -/
def readFraction (atEnd : Fault) (text : List Char) : Except Fault (List Char × List Char) :=
  match text with
  | '.' :: rest => digits atEnd rest
  | _ => .ok ([], text)

def opensExponent (c : Char) : Bool :=
  c == 'e' || c == 'E'

/-- The sign of an exponent, true if it is a minus, and what follows it. -/
def exponentSign : List Char → Bool × List Char
  | '+' :: rest => (false, rest)
  | '-' :: rest => (true, rest)
  | rest => (false, rest)

def readExponent (atEnd : Fault) (text : List Char) :
    Except Fault (Option (Bool × List Char) × List Char) :=
  match text with
  | [] => .ok (none, [])
  | c :: rest =>
    if opensExponent c then
      match digits atEnd (exponentSign rest).2 with
      | .error fault => .error fault
      | .ok (found, after) => .ok (some ((exponentSign rest).1, found), after)
    else .ok (none, c :: rest)

/-- The minus sign in front of a number, and what follows it. -/
def minus : List Char → Bool × List Char
  | '-' :: rest => (true, rest)
  | rest => (false, rest)

/-- Take a number apart. Where a digit has to follow and the text ends, answer `atEnd`. -/
def read (atEnd : Fault) (text : List Char) : Except Fault (Numeral × List Char) :=
  match readWhole atEnd (minus text).2 with
  | .error fault => .error fault
  | .ok (whole, rest) =>
    match readFraction atEnd rest with
    | .error fault => .error fault
    | .ok (fraction, rest) =>
      match readExponent atEnd rest with
      | .error fault => .error fault
      | .ok (exponent, rest) => .ok (⟨(minus text).1, whole, fraction, exponent⟩, rest)

/-- The number that digits write behind the digits of `before`. -/
def natOf (before : Nat) (digits : List Char) : Nat :=
  digits.foldl (fun n c => 10 * n + (c.toNat - '0'.toNat)) before

/-- Write digits behind those of a number for as long as the result fits into 64 bits. The result
    is the number and how many digits it took. -/
def fill (before : Nat) : List Char → Nat × Nat
  | [] => (before, 0)
  | c :: rest =>
    let next := natOf before [c]
    if next < Binary64.twoTo 64 then
      let filled := fill next rest
      (filled.1, filled.2 + 1)
    else (before, 0)

/-- The greatest exponent that is computed with. -/
def greatestExponent : Nat := 2147483647

/-- The rounded value of a number, from the digits that fit into 64 bits and the power of ten that
    makes up for the rest. A number beyond the greatest one breaks the rules. -/
def round (numeral : Numeral) : Except Fault Found :=
  let whole := fill 0 numeral.whole
  let both := fill whole.1 numeral.fraction
  let power : Int := (numeral.whole.length - whole.2 : Nat) - (both.2 : Int)
  let scaled : Option Binary64 :=
    match numeral.exponent with
    | none => (Binary64.ofNat? both.1).bind (·.scale? power)
    | some (negative, found) =>
      let exponent := natOf 0 found
      if exponent ≤ greatestExponent then
        let power := if negative then power - exponent else power + exponent
        (Binary64.ofNat? both.1).bind (·.scale? power)
      else if negative ∨ both.1 = 0 then some ⟨0, 0⟩
      else none
  match scaled with
  | some magnitude => .ok (.float numeral.negative magnitude)
  | none => .error .malformed

def value (numeral : Numeral) : Except Fault Found :=
  let n := natOf 0 numeral.whole
  if numeral.fraction.isEmpty ∧ numeral.exponent.isNone ∧ n < Binary64.twoTo 64 then
    if numeral.negative then
      if 0 < n ∧ n ≤ Binary64.twoTo 63 then .ok (.integer (-n)) else numeral.round
    else .ok (.integer n)
  else numeral.round

theorem length_digits_lt {atEnd : Fault} {text found rest : List Char}
    (h : digits atEnd text = .ok (found, rest)) : rest.length < text.length := by
  unfold digits at h
  split at h
  · exact absurd h (by simp)
  next c tail =>
    split at h
    next digit =>
      simp only [Except.ok.injEq, Prod.mk.injEq, List.dropWhile_cons, digit, if_true] at h
      have := (List.dropWhile_sublist (l := tail) isDigit).length_le
      rw [← h.2]
      simp only [List.length_cons]
      omega
    · exact absurd h (by simp)

theorem length_readWhole_lt {atEnd : Fault} {text whole rest : List Char}
    (h : readWhole atEnd text = .ok (whole, rest)) : rest.length < text.length := by
  unfold readWhole at h
  split at h
  · exact absurd h (by simp)
  next found =>
    split at h
    · exact absurd h (by simp)
    · simp only [Except.ok.injEq, Prod.mk.injEq] at h
      rw [← h.2]
      exact length_digits_lt found

theorem length_readFraction_le {atEnd : Fault} {text fraction rest : List Char}
    (h : readFraction atEnd text = .ok (fraction, rest)) : rest.length ≤ text.length := by
  unfold readFraction at h
  split at h
  · have := length_digits_lt h
    simp only [List.length_cons]
    omega
  · simp only [Except.ok.injEq, Prod.mk.injEq] at h
    exact Nat.le_of_eq (congrArg List.length h.2.symm)

theorem length_exponentSign_le (text : List Char) :
    (exponentSign text).2.length ≤ text.length := by
  unfold exponentSign
  split <;> simp

theorem length_readExponent_le {atEnd : Fault} {text rest : List Char}
    {exponent : Option (Bool × List Char)}
    (h : readExponent atEnd text = .ok (exponent, rest)) : rest.length ≤ text.length := by
  unfold readExponent at h
  split at h
  · simp only [Except.ok.injEq, Prod.mk.injEq] at h
    simp [← h.2]
  next c tail =>
    split at h
    · split at h
      · exact absurd h (by simp)
      next found after read =>
        have shorter := length_digits_lt read
        have signed := length_exponentSign_le tail
        simp only [Except.ok.injEq, Prod.mk.injEq] at h
        rw [← h.2]
        simp only [List.length_cons]
        omega
    · simp only [Except.ok.injEq, Prod.mk.injEq] at h
      exact Nat.le_of_eq (congrArg List.length h.2.symm)

theorem length_minus_le (text : List Char) : (minus text).2.length ≤ text.length := by
  unfold minus
  split <;> simp

/-- A number takes at least one character. -/
theorem length_read_lt {atEnd : Fault} {text rest : List Char} {numeral : Numeral}
    (h : read atEnd text = .ok (numeral, rest)) : rest.length < text.length := by
  unfold read at h
  have signed := length_minus_le text
  split at h
  · exact absurd h (by simp)
  next whole after1 h1 =>
    have := length_readWhole_lt h1
    split at h
    · exact absurd h (by simp)
    next fraction after2 h2 =>
      have := length_readFraction_le h2
      split at h
      · exact absurd h (by simp)
      next exponent after3 h3 =>
        have := length_readExponent_le h3
        simp only [Except.ok.injEq, Prod.mk.injEq] at h
        rw [← h.2]
        omega

end Numeral

def opensNumber (c : Char) : Bool :=
  c == '-' || isDigit c

def skipNumber (text : List Char) : Except Fault (List Char) :=
  match Numeral.read .malformed text with
  | .error fault => .error fault
  | .ok (_, rest) => .ok rest

theorem length_skipNumber_lt {text rest : List Char} (h : skipNumber text = .ok rest) :
    rest.length < text.length := by
  unfold skipNumber at h
  split at h
  · exact absurd h (by simp)
  next read =>
    simp only [Except.ok.injEq] at h
    rw [← h]
    exact Numeral.length_read_lt read

end TreeQuery.Json
