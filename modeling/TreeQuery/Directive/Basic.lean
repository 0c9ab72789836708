import TreeQuery.OrderedMap

/-!
# Directives

Authors steer the treatment of a declaration by lines of the form `!Name args` in
its documentation. There are eight of them, and their names are matched without
regard to the case of ASCII letters.

The directives of one declaration form a set with one directive for each kind. A
kind that is declared again replaces the earlier directive and keeps its place,
so a set lists its kinds in the order in which they first occurred and holds for
each the last directive of that kind.

## Main definitions

* `Directive.Kind`: The directives that there are.
* `Directive.Kind.ofName?`: The directive called by a name.
* `Directive`: One directive, as it was written.
* `DirectiveSet`: The directives of one declaration.
-/

namespace TreeQuery

/-- The directives that there are. -/
inductive Directive.Kind where
  /-- The members of the class are added to an existing table. -/
  | extension
  /-- The members are added to the table that stands behind a built-in type. -/
  | metaExtension
  /-- A named function constructs the class in place of `new`. -/
  | customConstructor
  /-- Only the members of the declaration are kept. -/
  | compileMembersOnly
  /-- The class only declares a shape, and nothing inherits from it. -/
  | pureAbstract
  /-- The namespace is flattened into the scope around it. -/
  | phantom
  /-- The function returns several values instead of one array. -/
  | tupleReturn
  /-- Names that refer to the symbol are kept as they are. -/
  | noResolution
  deriving DecidableEq

namespace Directive.Kind

/-- Every directive, in the order in which they are documented. -/
def all : List Kind :=
  [.extension, .metaExtension, .customConstructor, .compileMembersOnly, .pureAbstract, .phantom,
   .tupleReturn, .noResolution]

def name : Kind → String
  | .extension => "Extension"
  | .metaExtension => "MetaExtension"
  | .customConstructor => "CustomConstructor"
  | .compileMembersOnly => "CompileMembersOnly"
  | .pureAbstract => "PureAbstract"
  | .phantom => "Phantom"
  | .tupleReturn => "TupleReturn"
  | .noResolution => "NoResolution"

/-- A text with its ASCII capitals in lower case and everything else as it is. -/
def fold (text : String) : List Char :=
  text.toList.map Char.toLower

/-- The directive that a name calls, whatever the case of its ASCII letters. -/
def ofName? (text : String) : Option Kind :=
  all.find? fun kind => fold kind.name == fold text

theorem mem_all (kind : Kind) : kind ∈ all := by
  cases kind <;> decide

end Directive.Kind

/-- One directive, as it was written. -/
structure Directive where
  kind : Directive.Kind
  /-- The whole line, marker included. -/
  text : String
  /-- The words after the name. -/
  args : List String
  deriving DecidableEq

namespace Directive

/-- The character that opens the line of a directive. -/
def marker : Char := '!'

/-- The word at a place after the name, counted from zero. -/
def arg? (directive : Directive) (index : Nat) : Option String :=
  directive.args[index]?

end Directive

/-- The directives of one declaration, one for each kind. -/
structure DirectiveSet where
  entries : OrderedMap Directive.Kind Directive := .empty

namespace DirectiveSet

def empty : DirectiveSet := {}

/-- Add a directive. The first component is the directive of its kind that it replaced. -/
def insert (set : DirectiveSet) (directive : Directive) : Option Directive × DirectiveSet :=
  let result := set.entries.insert directive.kind directive
  (result.1, ⟨result.2⟩)

def get? (set : DirectiveSet) (kind : Directive.Kind) : Option Directive :=
  set.entries.find? kind

def has (set : DirectiveSet) (kind : Directive.Kind) : Bool :=
  set.entries.contains kind

def size (set : DirectiveSet) : Nat :=
  set.entries.size

def isEmpty (set : DirectiveSet) : Bool :=
  set.entries.entries.isEmpty

/-- The kinds of the directives, in the order in which they first occurred. -/
def kinds (set : DirectiveSet) : List Directive.Kind :=
  set.entries.keys

/-- The directives with their kinds, in the order in which the kinds first occurred. -/
def toList (set : DirectiveSet) : List (Directive.Kind × Directive) :=
  set.entries.entries

/-- The set that results from adding the directives of a list, from left to right. -/
def ofList (directives : List Directive) : DirectiveSet :=
  directives.foldl (fun set directive => (set.insert directive).2) empty

/-- Whether two sets hold the same directives, in whatever order. -/
def sameDirectives (left right : DirectiveSet) : Bool :=
  left.entries.sameEntries right.entries

instance : BEq DirectiveSet := ⟨sameDirectives⟩

end DirectiveSet

end TreeQuery
