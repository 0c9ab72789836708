import TreeQuery.Directive.Basic
import TreeQuery.Text.Blank

/-!
# Lines of directives

A line of a directive is the marker, the name directly after it, and then, after
blanks, the words that the directive is given. Blanks at the end of the line
count for nothing. A line feed may stand among the blanks between the name and the
first word, but not behind that: it would begin another line.

The name is everything up to the first blank. It may be anything, also nothing;
whether it calls a directive is decided afterwards.

## Main definitions

* `Directive.cut?`: The name and the words of a line.
* `Directive.ofLine?`: The directive that a line declares.
-/

namespace TreeQuery.Directive

/-- The name of a line and the text of its words, if the line has the form of a directive. -/
def cut? (line : List Char) : Option (List Char × List Char) :=
  match Text.trimEnd line with
  | [] => none
  | first :: rest =>
    if first = marker then
      let name := rest.takeWhile fun c => !Text.isBlank c
      let words := Text.trimStart (rest.dropWhile fun c => !Text.isBlank c)
      if words.contains '\n' then none else some (name, words)
    else none

/-- The directive that a line declares. The line itself is kept as it was written. -/
def ofLine? (line : String) : Option Directive := do
  let (name, words) ← cut? line.toList
  let kind ← Kind.ofName? (String.ofList name)
  pure ⟨kind, line, (Text.words words).map String.ofList⟩

end TreeQuery.Directive
