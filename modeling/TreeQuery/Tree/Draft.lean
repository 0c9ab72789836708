import TreeQuery.Flags.Table
import TreeQuery.Tree.Form

/-!
# Trees under construction

A tree is built from the leaves up. A node is added after all of its children,
and it is given the next free number, so a child always has a smaller number than
its parent.

Adding a node does two things. It puts the node at the end, and it makes the node
the parent of each of its children, whatever parent they had before. A child that
is named by several nodes belongs to the last of them. A node that nobody names
has no parent; that is how a fragment outside the program is represented.

The only thing that can go wrong is a child that is not there yet. The first one
in the order of the slots is reported, together with the number of nodes so far.
An addition that fails leaves nothing behind, since the draft it would have
changed is not handed on.

## Main definitions

* `Range`: The part of the program text that a node covers.
* `Cell`: A node as it is stored, with its link to its parent.
* `Draft`: The nodes so far.
* `Build`: An action on a draft that may name a node that is not there.
* `push`: Add one node.
* `setRange`: Say which part of the text a node covers.
-/

namespace TreeQuery

/-- A part of the program text, as the positions of its start and its end. -/
structure Range where
  start : Nat := 0
  stop : Nat := 0
  deriving DecidableEq

/-- The number of positions from the start to the end, zero if they are in the wrong order. -/
def Range.width (range : Range) : Nat :=
  range.stop - range.start

/-- A node as it is stored. -/
structure Cell where
  form : Form
  modifiers : ModifierFlags
  /-- The node that names it as a child; the last one, if there are several. -/
  parent : Option NodeId := none
  range : Range := {}
  deriving DecidableEq

/-- A tree under construction. -/
structure Draft where
  /-- The nodes so far; the number of a node is its place. -/
  cells : Array Cell := #[]

namespace Draft

/-- The number of nodes so far, which is the number of the next node. -/
def size (draft : Draft) : Nat :=
  draft.cells.size

/-- Make `parent` the parent of each of the `children`. -/
def adopt (parent : NodeId) (children : List NodeId) (cells : Array Cell) : Array Cell :=
  children.foldl
    (fun cells child => cells.modify child fun cell => { cell with parent := some parent }) cells

end Draft

/-- A node that was named before it was there. -/
structure MissingNode where
  index : NodeId
  /-- How many nodes there were. -/
  size : Nat
  deriving DecidableEq

def MissingNode.message (missing : MissingNode) : String :=
  "index out of bounds: the len is " ++ toString missing.size ++ " but the index is " ++
    toString missing.index

/-- An action on a draft that may name a node that is not there. -/
abbrev Build := StateT Draft (Except MissingNode)

namespace Build

/-- Add a node with modifiers, and become the parent of its children. Its number is the number of
    nodes before it. -/
def pushWith (form : Form) (modifiers : ModifierFlags) : Build NodeId := fun draft =>
  match form.children.find? fun child => decide (draft.size ≤ child) with
  | some child => .error ⟨child, draft.size⟩
  | none =>
    let cells := Draft.adopt draft.size form.children draft.cells
    .ok (draft.size, ⟨cells.push ⟨form, modifiers, none, {}⟩⟩)

def push (form : Form) : Build NodeId :=
  pushWith form .none

def setRange (node : NodeId) (range : Range) : Build Unit := fun draft =>
  if node < draft.size then
    .ok ((), ⟨draft.cells.modify node fun cell => { cell with range := range }⟩)
  else .error ⟨node, draft.size⟩

end Build

end TreeQuery
