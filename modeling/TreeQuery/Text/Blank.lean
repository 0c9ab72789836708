/-!
# Blanks, words and lines

How a piece of documentation falls apart: at its ends, between words, and
between lines.

A character is blank when it has Unicode's White_Space property. That is more
than the space and the tab: the line and paragraph separators, the no-break
spaces and the typographic spaces belong to it, while the zero-width space and
the byte order mark do not. Everything below is stated over lists of characters,
where the library's `takeWhile`, `dropWhile` and `splitOnP` do the work and have
their lemmas already.

Lines end at a line feed. One carriage return directly before the line feed
belongs to the line end; a carriage return anywhere else is an ordinary
character of its line. A text has no lines when it is empty, and a final line
feed opens no further line.

## Main definitions

* `isBlank`: Membership in White_Space.
* `trimStart`, `trimEnd`, `trim`: A text without the blanks at its ends.
* `words`: The maximal runs of characters that are not blank.
* `lines`: The lines of a text.
-/

namespace TreeQuery.Text

/-- Whether `n` lies in one of the ranges, both ends included. -/
def inRanges (ranges : List (Nat × Nat)) (n : Nat) : Bool :=
  ranges.any fun range => decide (range.1 ≤ n) && decide (n ≤ range.2)

/-- The code points with the White_Space property, as ranges in ascending order. -/
def blankRanges : List (Nat × Nat) :=
  [(0x9, 0xD), (0x20, 0x20), (0x85, 0x85), (0xA0, 0xA0), (0x1680, 0x1680), (0x2000, 0x200A),
   (0x2028, 0x2029), (0x202F, 0x202F), (0x205F, 0x205F), (0x3000, 0x3000)]

/-- Whether a character is blank, which is to say has the White_Space property. -/
def isBlank (c : Char) : Bool :=
  inRanges blankRanges c.toNat

def trimStart (text : List Char) : List Char :=
  text.dropWhile isBlank

def trimEnd (text : List Char) : List Char :=
  (text.reverse.dropWhile isBlank).reverse

def trim (text : List Char) : List Char :=
  trimEnd (trimStart text)

/-- The words of a text: what stands between its blanks, empty pieces left out. -/
def words (text : List Char) : List (List Char) :=
  (text.splitOnP isBlank).filter fun word => !word.isEmpty

/-- The lines of a text. A line feed ends a line and takes one carriage return directly before
    it along; what follows the last line feed is a line only if it is not empty. -/
def lines : List Char → List (List Char)
  | [] => []
  | '\n' :: rest => [] :: lines rest
  | '\r' :: '\n' :: rest => [] :: lines rest
  | c :: rest =>
    match lines rest with
    | [] => [[c]]
    | line :: more => (c :: line) :: more

/-- Every character that the core library calls white space is blank. -/
theorem isBlank_of_isWhitespace {c : Char} (h : c.isWhitespace = true) : isBlank c = true := by
  simp only [Char.isWhitespace, Bool.or_eq_true, decide_eq_true_eq] at h
  rcases h with ((rfl | rfl) | rfl) | rfl <;> decide

@[simp] theorem isBlank_lineFeed : isBlank '\n' = true := by decide

@[simp] theorem isBlank_exclamation : isBlank '!' = false := by decide

-- A carriage return that stands alone does not end a line.
example : lines ['a', '\r', '\n', '\r', 'b', '\n'] = [['a'], ['\r', 'b']] := by decide

end TreeQuery.Text
