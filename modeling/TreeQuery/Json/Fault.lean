import TreeQuery.Decimal.Shortest
import TreeQuery.Text.Quoted

/-!
# What can be wrong with a text

A text is read once, from left to right, and the first thing that is wrong ends the
reading. There are three sorts of it. The text may end inside a value. It may
break the rules of the format. Or it keeps them, and holds something that the
reader did not ask for; only then is there anything to say about it.

## Main definitions

* `Found`: What a value turned out to be.
* `Mismatch`: A well-formed text with the wrong content.
* `Mismatch.message`: What is said about it.
* `Fault`: Why a reading ended early.
-/

namespace TreeQuery.Json

/-- What a value turned out to be. -/
inductive Found where
  | null
  | boolean (value : Bool)
  | integer (value : Int)
  /-- A number with a fraction or an exponent, or beyond the integers. -/
  | float (negative : Bool) (magnitude : Binary64)
  | text (value : String)
  | array
  | object
  deriving DecidableEq

def Found.describe : Found → String
  | null => "null"
  | boolean value => "boolean `" ++ (if value then "true" else "false") ++ "`"
  | integer value => "integer `" ++ toString value ++ "`"
  | float negative magnitude =>
    "floating point `" ++ (if negative then "-" else "") ++ magnitude.render Decimal.style ++ "`"
  | text value => "string " ++ Text.quote value
  | array => "sequence"
  | object => "map"

/-- A well-formed text with the wrong content. -/
inductive Mismatch where
  /-- A member whose name no member of the object has, and the name that one could have. -/
  | unknownField (name expected : String)
  /-- A member that was there before. -/
  | duplicateField (name : String)
  /-- A word where one of a few was asked for. -/
  | unknownVariant (name : String) (expected : List String)
  /-- A value of another sort than the one that was asked for. -/
  | wrongType (found : Found) (expected : String)
  deriving DecidableEq

/-- A word of the text, set off from what is said about it. -/
def code (word : String) : String :=
  "`" ++ word ++ "`"

def Mismatch.message : Mismatch → String
  | unknownField name expected =>
    "unknown field " ++ code name ++ ", expected " ++ code expected
  | duplicateField name => "duplicate field " ++ code name
  | unknownVariant name expected =>
    "unknown variant " ++ code name ++ ", expected one of " ++
      ", ".intercalate (expected.map code)
  | wrongType found expected => "invalid type: " ++ found.describe ++ ", expected " ++ expected

/-- Why a reading ended early. -/
inductive Fault where
  /-- The text ended inside a value. -/
  | ended
  /-- The text broke the rules of the format. -/
  | malformed
  /-- The text holds something that was not asked for. -/
  | mismatch (mismatch : Mismatch)
  deriving DecidableEq

end TreeQuery.Json
