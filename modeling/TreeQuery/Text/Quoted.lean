import TreeQuery.Text.Blank
import TreeQuery.Text.Combining
import TreeQuery.Text.Invisible

/-!
# Quoted text

Text shown inside a message, between double quotes, on one line, and with every
character visible.

Six characters have an escape of their own: the two that would end or bend the
quotation (`"` and the backslash), and the four controls that occur most. Any
other character that combines with its neighbour or has no visible form is
written by its code point in hexadecimal. A single quote stands as it is.

A character that gets no escape is neither a quote nor a backslash, so a reader
can tell from the first character of each piece which of the forms it has.

## Main definitions

* `needsCode`: Whether a character is written by its code point.
* `escape`: The written form of one character.
* `quote`: A whole text between double quotes.
-/

namespace TreeQuery.Text

/-- Whether a character without an escape of its own is written by its code point. Printable
    ASCII never is, so the tables are consulted only outside it. -/
def needsCode (c : Char) : Bool :=
  let n := c.toNat
  if 0x20 ≤ n ∧ n < 0x7F then false
  else inRanges combiningRanges n || inRanges invisibleRanges n

/-- The code point of a character in hexadecimal, in lower case and without leading zeros. -/
def codeDigits (c : Char) : List Char :=
  Nat.toDigits 16 c.toNat

/-- The written form of one character between the quotes. -/
def escape (c : Char) : List Char :=
  if c = '\x00' then ['\\', '0']
  else if c = '\t' then ['\\', 't']
  else if c = '\n' then ['\\', 'n']
  else if c = '\r' then ['\\', 'r']
  else if c = '"' then ['\\', '"']
  else if c = '\\' then ['\\', '\\']
  else if needsCode c then '\\' :: 'u' :: '\x7b' :: (codeDigits c ++ ['\x7d'])
  else [c]

/-- The text between double quotes, each character in its written form. -/
def quote (text : String) : String :=
  String.ofList ('"' :: (text.toList.flatMap escape ++ ['"']))

-- A filler is written by its code point, and a sound mark that is a letter is not.
example : quote "\u115f\uff9e" = "\"\\u\x7b115f\x7d\uff9e\"" := by decide +kernel

-- A letter, an accent behind it, a control character and a quote.
example : quote "e\u0301\x1b\"" = "\"e\\u\x7b301\x7d\\u\x7b1b\x7d\\\"\"" := by decide +kernel

end TreeQuery.Text
