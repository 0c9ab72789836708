import TreeQuery.Text.Quoted
import TreeQuery.Tree.Draft

/-!
# Files and their nodes

A finished tree, and the ways to walk in it. A `Node` is a place in a file: it
knows its file, so from a node one reaches its parent, its children and
everything above it.

Walking follows stored numbers. A file made by the builders holds no number that
leads out of it, but a file is an ordinary value and nothing in its type says so.
Following a number that no node of the file has is therefore an error,
`OutOfFile`, and never silently an absent node. Whoever wants to know that a walk
succeeds has to know where the file came from.

The way up follows the links to the parents, which later additions may have
changed, so that it ends is not visible in the walk itself. `ancestors` allows
itself as many steps as the file has nodes. In a file made by the builders a
parent has a greater number than its children, so that is always enough.

Two files are different even if they were made from the same text, and nodes of
different files are different nodes. Each file has a serial number that says
which one it is.

## Main definitions

* `SourceFile`: A finished tree with a name.
* `Build.finish`: Turn a draft into a file.
* `Node`: A place in a file.
* `Node.parent`, `Node.children`, `Node.ancestors`, `Node.heritageClauses`: The
  ways to walk.
* `Node.describe`: A node as messages show it.
-/

namespace TreeQuery

/-- A finished tree. -/
structure SourceFile where
  name : String
  /-- The nodes; the number of a node is its place. -/
  cells : Array Cell
  /-- The node that stands for the whole program. -/
  root : NodeId
  /-- Which of the loaded files this is. -/
  serial : Nat := 0

/-- Add the node for the whole program and close the draft. -/
def Build.finish (name : String) (statements : List NodeId) : Build SourceFile := do
  let root ← push (.sourceFile statements)
  let draft ← get
  pure ⟨name, draft.cells, root, 0⟩

/-- Finish a draft, or name the statement that is missing. -/
def Draft.finish (draft : Draft) (name : String) (statements : List NodeId) :
    Except MissingNode SourceFile :=
  (Build.finish name statements).run' draft

/-- A number that no node of a file has. -/
structure OutOfFile where
  index : NodeId
  file : String
  deriving DecidableEq

def OutOfFile.message (error : OutOfFile) : String :=
  "node NodeId(" ++ toString error.index ++ ") is not part of " ++ error.file

/-- A place in a file. -/
structure Node where
  file : SourceFile
  id : NodeId
  inFile : id < file.cells.size

namespace SourceFile

def size (file : SourceFile) : Nat :=
  file.cells.size

def isEmpty (file : SourceFile) : Bool :=
  file.cells.isEmpty

def node (file : SourceFile) (id : NodeId) : Except OutOfFile Node :=
  if inFile : id < file.cells.size then .ok ⟨file, id, inFile⟩ else .error ⟨id, file.name⟩

/-- The nodes with the given numbers, in their order. -/
def nodes (file : SourceFile) (ids : List NodeId) : Except OutOfFile (List Node) :=
  ids.mapM file.node

/-- All nodes of the file, in the order of their numbers. -/
def allNodes (file : SourceFile) : List Node :=
  List.ofFn fun id : Fin file.cells.size => ⟨file, id.val, id.isLt⟩

def rootNode (file : SourceFile) : Except OutOfFile Node :=
  file.node file.root

/-- Another file with the same content. -/
def copy (file : SourceFile) : SourceFile :=
  { file with serial := file.serial + 1 }

end SourceFile

namespace Node

def cell (node : Node) : Cell :=
  getElem node.file.cells node.id node.inFile

def form (node : Node) : Form :=
  node.cell.form

def kind (node : Node) : Kind :=
  node.form.kind

def is (node : Node) (kind : Kind) : Bool :=
  node.kind == kind

def range (node : Node) : Range :=
  node.cell.range

/-- Whether the node has one of the given modifiers. -/
def hasModifier (node : Node) (flags : ModifierFlags) : Bool :=
  node.cell.modifiers.meets flags

def text? (node : Node) : Option String :=
  node.form.text?

/-- Whether two places are the same place of the same file. -/
def same (left right : Node) : Bool :=
  left.file.serial == right.file.serial && left.id == right.id

/-- The node that has this one as a child. -/
def parent (node : Node) : Except OutOfFile (Option Node) :=
  match node.cell.parent with
  | none => .ok none
  | some id => some <$> node.file.node id

def children (node : Node) : Except OutOfFile (List Node) :=
  node.file.nodes node.form.children

/-- The heritage clauses of a class, in the order of the program. -/
def heritageClauses (node : Node) : Except OutOfFile (List Node) :=
  node.file.nodes node.form.heritage

/-- The nodes on the way up that starts with the node numbered `next`, in at most `steps` steps. -/
def climb (file : SourceFile) :
    (steps : Nat) → (next : Option NodeId) → Except OutOfFile (List Node)
  | _, none => .ok []
  | 0, some _ => .ok []
  | steps + 1, some id => do
    let node ← file.node id
    let above ← climb file steps node.cell.parent
    pure (node :: above)

/-- The nodes above this one, from its parent to the topmost. -/
def ancestors (node : Node) : Except OutOfFile (List Node) :=
  climb node.file node.file.size node.cell.parent

/-- The nearest of the nodes above this one that satisfies a condition. -/
def firstAbove (node : Node) (condition : Node → Bool) : Except OutOfFile (Option Node) :=
  (·.find? condition) <$> node.ancestors

/-- A node as messages show it: its kind, its number, and its text if it has one. -/
def describe (node : Node) : String :=
  node.kind.label ++ "#" ++ toString node.id ++
    match node.text? with
    | some text => "(" ++ Text.quote text ++ ")"
    | none => ""

end Node

def SourceFile.statements (file : SourceFile) : Except OutOfFile (List Node) := do
  (← file.rootNode).children

end TreeQuery
