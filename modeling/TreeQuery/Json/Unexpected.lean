import TreeQuery.Json.Value

/-!
# Values of the wrong sort

A reader that meets a value of another sort than it asked for says what it found.
To say it, it reads the value as far as it has to: a word, a number or a string up
to its end, because what is wrong with those comes first, and of an array or an
object only the bracket.

## Main definitions

* `unexpected`: The fault of a value that was not asked for.
-/

namespace TreeQuery.Json

/-- The fault of finding one sort of value where another was asked for, once the rest of a word has
    been read. -/
def unexpectedWord (found : Found) (expected : String) (rest : Except Fault (List Char)) : Fault :=
  match rest with
  | .error fault => fault
  | .ok _ => .mismatch (.wrongType found expected)

/-- The fault of a number where something else was asked for. -/
def unexpectedNumber (expected : String) (text : List Char) : Fault :=
  match Numeral.read .ended text with
  | .error fault => fault
  | .ok (numeral, _) =>
    match numeral.value with
    | .error fault => fault
    | .ok found => .mismatch (.wrongType found expected)

/-- The fault of a string where something else was asked for, from behind its opening quote. -/
def unexpectedText (expected : String) (text : List Char) : Fault :=
  match readText text with
  | .error fault => fault
  | .ok (value, _) => .mismatch (.wrongType (.text value) expected)

/-- The fault of a value that was not asked for. `expected` says what was. -/
def unexpected (expected : String) (text : List Char) : Fault :=
  match text with
  | [] => .ended
  | c :: rest =>
    if c = 'n' then unexpectedWord .null expected (skipWord ['u', 'l', 'l'] rest)
    else if c = 't' then unexpectedWord (.boolean true) expected (skipWord ['r', 'u', 'e'] rest)
    else if c = 'f' then
      unexpectedWord (.boolean false) expected (skipWord ['a', 'l', 's', 'e'] rest)
    else if c = '"' then unexpectedText expected rest
    else if c = '[' then .mismatch (.wrongType .array expected)
    else if c = '{' then .mismatch (.wrongType .object expected)
    else if opensNumber c then unexpectedNumber expected (c :: rest)
    else .malformed

end TreeQuery.Json
