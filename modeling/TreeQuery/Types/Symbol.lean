import TreeQuery.Flags.Table
import TreeQuery.OrderedMap

/-!
# Symbols and their documentation

A symbol is what a name in a program stands for. Its documentation is a list of
parts, as an editor would show them: plain text, line breaks, links and so on. A
symbol of a class or an object has members, each known under a name.

## Main definitions

* `DocPart`: A piece of documentation.
* `Symbol`: What a name stands for.
* `Symbol.withMembers`: A symbol with a table of members, filled in order.
-/

namespace TreeQuery

/-- The kinds of pieces of documentation. -/
inductive DocPart.Kind where
  | text | lineBreak | space | punctuation | keyword | link | linkName | linkText
  deriving DecidableEq

namespace DocPart.Kind

def all : List Kind :=
  [.text, .lineBreak, .space, .punctuation, .keyword, .link, .linkName, .linkText]

def label : Kind → String
  | .text => "Text"
  | .lineBreak => "LineBreak"
  | .space => "Space"
  | .punctuation => "Punctuation"
  | .keyword => "Keyword"
  | .link => "Link"
  | .linkName => "LinkName"
  | .linkText => "LinkText"

def ofLabel? (label : String) : Option Kind :=
  all.find? fun kind => kind.label == label

end DocPart.Kind

/-- A piece of documentation. -/
structure DocPart where
  kind : DocPart.Kind
  text : String
  deriving DecidableEq

namespace DocPart

def plain (text : String) : DocPart := ⟨.text, text⟩

def lineBreak : DocPart := ⟨.lineBreak, "\n"⟩

def isText (part : DocPart) : Bool :=
  part.kind == .text

end DocPart

/-- What a name in a program stands for. -/
structure Symbol where
  name : String
  flags : SymbolFlags
  documentation : List DocPart
  /-- The members by name, in the order of their declaration, if the symbol can have any. -/
  members : Option (OrderedMap String Symbol)

/-- The symbol with a table of members, each under its own name. A name that comes again replaces
    the earlier member. -/
def Symbol.withMembers (symbol : Symbol) (members : List Symbol) : Symbol :=
  { symbol with members := some (.ofList (members.map fun member => (member.name, member))) }

end TreeQuery
