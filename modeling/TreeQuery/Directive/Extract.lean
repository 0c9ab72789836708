import TreeQuery.Directive.Error
import TreeQuery.Directive.Line
import TreeQuery.Log.Traced
import TreeQuery.Types.Symbol

/-!
# Directives in documentation

Only plain text is searched. Each piece of it is trimmed at its ends and taken
apart into lines, and the lines that open with the marker are the lines of
directives. A marker behind blanks counts only where trimming removes the blanks,
at the start of a piece.

Every line of a directive has to declare one. The lines are read in order, and
the first that declares none ends the reading with an error. The messages up to
there have been sent by then.

The name in the error is the first word behind the marker, which is where a
reader looks for it.

## Main definitions

* `Directive.linesOf`: The lines of directives in a documentation.
* `Directive.gather`: Read lines into a set, and say which kinds come again.
* `Symbol.directives`: The directives of a symbol.
-/

namespace TreeQuery

namespace Directive

/-- The lines of directives in a documentation, in its order. -/
def linesOf (parts : List DocPart) : List String :=
  (parts.filter DocPart.isText).flatMap fun part =>
    ((Text.lines (Text.trim part.text.toList)).filter fun line =>
      line.head? == some marker).map String.ofList

/-- The name that a line is reported under: the first word behind the marker, or nothing. -/
def reportedName (line : String) : String :=
  let behind :=
    match line.toList with
    | [] => []
    | first :: rest => if first = marker then rest else first :: rest
  match Text.words behind with
  | [] => ""
  | word :: _ => String.ofList word

/-- What is said when a kind of directive comes again. -/
def repeatedMessage (owner : String) (kind : Kind) : String :=
  "'" ++ owner ++ "' declares !" ++ kind.name ++ " more than once; keeping the last one"

/-- What is said about the directives that were found. -/
def summaryMessage (owner : String) (set : DirectiveSet) : String :=
  "'" ++ owner ++ "' carries " ++ toString set.size ++ " directive(s): " ++
    ", ".intercalate (set.kinds.map Kind.name)

/-- Read lines of directives into a set, in order and up to the first that declares none. A kind
    that comes again is reported when it does, and the whole set at the end if it is not empty. -/
def gather (owner : String) (set : DirectiveSet) :
    List String → Traced (Except DirectiveError DirectiveSet)
  | [] => ⟨.ok set, if set.isEmpty then [] else [⟨.debug, summaryMessage owner set⟩]⟩
  | line :: rest =>
    match ofLine? line with
    | none => ⟨.error (.unrecognized (reportedName line) line owner), []⟩
    | some directive =>
      let (previous, next) := set.insert directive
      let repeated := previous.toList.map fun earlier =>
        ⟨.debug, repeatedMessage owner earlier.kind⟩
      let later := gather owner next rest
      ⟨later.value, repeated ++ later.messages⟩

end Directive

/-- The directives that the documentation of a symbol declares. -/
def Symbol.directives (symbol : Symbol) : Traced (Except DirectiveError DirectiveSet) :=
  Directive.gather symbol.name .empty (Directive.linesOf symbol.documentation)

end TreeQuery
