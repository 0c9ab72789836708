import Mathlib.Data.List.Nodup
import TreeQuery.Proofs.Tree.Content
import TreeQuery.Proofs.Tree.Forest

/-!
# What a slot is for

The slots of a form are listed one after the other, and the list does not say what each of
them is for. Here every number is listed together with the role of its slot: whether it is
the condition of a loop, the callee of a call, one of the statements of a block. The
numbers alone are the list of the children, so no slot is missing and none is invented.

A slot is known by the node that it belongs to and by its place among the slots of that
node. In a file where no node is used twice a node stands in one slot at most: other nodes
do not name it, and its parent names it once. The slot then decides the role, and asking
for the role of a node makes sense.

## Main definitions

* `Role`: What a slot is for.
* `Form.roles`: The numbers in the slots of a form, with the roles of the slots.
* `StandsIn`: A node stands in a slot of another.

## Theorems

* `map_snd_roles`: The numbers with roles are the children.
* `slots_eq_flatMap`: The slots that edits fill are the slots of what they add.
* `SourceFile.BuiltOnce.nodup_children`: A node of such a file names nobody twice.
* `exists_standsIn_iff`: A node stands in the slots of those that have it as a child.
* `StandsIn.parent_eq`: The node that a slot belongs to is the parent.
* `StandsIn.unique`: A node stands in one slot at most.
* `exists_standsIn_of_parent`, `not_standsIn_of_top`: It stands in a slot of its parent, and
  in none if it has no parent.
-/

namespace TreeQuery

/-- What a slot is for. -/
inductive Role where
  | statement | name | clause | type | expression | parameter | body | declaration | initialValue
  | element | start | condition | increment | source | left | right | callee | argument | object
  deriving DecidableEq

/-- The numbers in the slots of a form, each with the role of its slot, in the order in which they
    stand in a program. -/
def Form.roles : Form → List (Role × NodeId)
  | identifier _ | numericLiteral _ | stringLiteral _ => []
  | sourceFile statements | block statements => statements.map (.statement, ·)
  | classDeclaration name heritage => name.toList.map (.name, ·) ++ heritage.map (.clause, ·)
  | heritageClause _ types => types.map (.type, ·)
  | expressionWithTypeArguments expression | expressionStatement expression
  | exportAssignment expression => [(.expression, expression)]
  | functionDeclaration name parameters body =>
    name.toList.map (.name, ·) ++ parameters.map (.parameter, ·) ++ body.toList.map (.body, ·)
  | parameter name | bindingElement name => [(.name, name)]
  | variableStatement declarations => declarations.map (.declaration, ·)
  | variableDeclaration name initialValue =>
    (.name, name) :: initialValue.toList.map (.initialValue, ·)
  | arrayBindingPattern elements | arrayLiteralExpression elements => elements.map (.element, ·)
  | returnStatement expression => expression.toList.map (.expression, ·)
  | forStatement start condition increment body =>
    start.toList.map (.start, ·) ++ condition.toList.map (.condition, ·) ++
      increment.toList.map (.increment, ·) ++ [(.body, body)]
  | exportDeclaration source => source.toList.map (.source, ·)
  | binaryExpression left _ right => [(.left, left), (.right, right)]
  | callExpression callee arguments => (.callee, callee) :: arguments.map (.argument, ·)
  | propertyAccessExpression object name => [(.object, object), (.name, name)]

/-- The first node stands in a slot of the second. The slot has the given place among all slots of
    that node, and the given role. -/
def StandsIn (node parent : Node) (place : Nat) (role : Role) : Prop :=
  parent.file = node.file ∧ parent.form.roles[place]? = some (role, node.id)

/-- Without the roles the numbers are the children. -/
theorem map_snd_roles (form : Form) : form.roles.map (·.2) = form.children := by
  have hlist : ∀ (role : Role) (ids : List NodeId),
      (ids.map fun id => (role, id)).map (·.2) = ids := by
    intro role ids
    rw [List.map_map]
    exact List.map_id' ids
  cases form <;> simp only [Form.roles, Form.children, List.map_append, List.map_cons, List.map_nil,
    hlist]

theorem slots_eq_flatMap (edits : List Edit) :
    slots edits = (additions edits).flatMap fun entry => entry.1.children := by
  induction edits with
  | nil => rfl
  | cons edit rest ih =>
      cases edit with
      | add form modifiers => exact congrArg (form.children ++ ·) ih
      | cover id range => exact ih

/-- In a file in which no node is used twice a node names nobody twice. -/
theorem SourceFile.BuiltOnce.nodup_children {node : Node} (h : node.file.BuiltOnce) :
    node.form.children.Nodup := by
  rcases h with ⟨steps, draft, statements, hrun, hfinish, honce⟩
  rcases (finish_eq_ok_iff ..).mp hfinish with ⟨_, hfile⟩
  have hcells : node.file.cells = (draft.extend (.sourceFile statements) .none).cells :=
    congrArg SourceFile.cells hfile
  have hrecords := records_extend draft (.sourceFile statements) .none
    (records_of_run steps draft hrun)
  rw [← hcells] at hrecords
  have hentry := List.mem_of_getElem? (hrecords.addition_eq node.id node.cell (getElem?_id node))
  have hslots : (slots (recipeEdits 0 steps ++ [.add (.sourceFile statements) .none])).Nodup := by
    rw [slots_append, slots, slots, List.append_nil]
    exact honce
  rw [slots_eq_flatMap, List.nodup_flatMap] at hslots
  exact hslots.1 _ hentry

theorem exists_standsIn_iff (node parent : Node) :
    (∃ place role, StandsIn node parent place role) ↔
      parent.file = node.file ∧ node.id ∈ parent.form.children := by
  simp only [StandsIn, exists_and_left]
  refine and_congr_right fun _ => ?_
  rw [← map_snd_roles, List.mem_map]
  constructor
  · rintro ⟨place, role, hplace⟩
    exact ⟨_, List.mem_of_getElem? hplace, rfl⟩
  · rintro ⟨⟨role, id⟩, hmem, rfl⟩
    rcases List.getElem?_of_mem hmem with ⟨place, hplace⟩
    exact ⟨place, role, hplace⟩

theorem StandsIn.parent_eq {node parent : Node} {place : Nat} {role : Role}
    (hbuilt : node.file.BuiltOnce) (h : StandsIn node parent place role) :
    node.parent = .ok (some parent) := by
  rcases (exists_standsIn_iff ..).mp ⟨place, role, h⟩ with ⟨hfile, hchild⟩
  have hnames : Names node.file.cells parent.id node.id :=
    ⟨parent.cell, hfile ▸ getElem?_id parent, hchild⟩
  rw [parent_eq_some_iff]
  exact ⟨(hbuilt.namedOnce.parent_eq_some_iff hbuilt.linked (getElem?_id node)).mpr hnames, hfile⟩

/-- A node stands in one slot at most. -/
theorem StandsIn.unique {node parent other : Node} {place second : Nat} {role another : Role}
    (hbuilt : node.file.BuiltOnce) (h : StandsIn node parent place role)
    (h' : StandsIn node other second another) :
    parent = other ∧ place = second ∧ role = another := by
  have hsame := (h.parent_eq hbuilt).symm.trans (h'.parent_eq hbuilt)
  rw [Except.ok.injEq, Option.some.injEq] at hsame
  subst hsame
  have hnodup : (parent.form.roles.map (·.2)).Nodup := by
    rw [map_snd_roles]
    exact (h.1 ▸ hbuilt : parent.file.BuiltOnce).nodup_children
  -- Both places of the list of children hold the number of the node.
  have hplace : place = second := by
    rcases List.getElem?_eq_some_iff.mp h.2 with ⟨hplace, hrole⟩
    rcases List.getElem?_eq_some_iff.mp h'.2 with ⟨hsecond, hanother⟩
    rw [← List.length_map (·.2)] at hplace hsecond
    have hvalue : (parent.form.roles.map (·.2))[place] = (parent.form.roles.map (·.2))[second] := by
      rw [List.getElem_map, List.getElem_map, hrole, hanother]
    exact hnodup.getElem_inj_iff.mp hvalue
  subst hplace
  exact ⟨rfl, rfl, (Prod.mk.inj (Option.some.inj (h.2.symm.trans h'.2))).1⟩

theorem exists_standsIn_of_parent {node parent : Node} (hlinked : Linked node.file.cells)
    (hparent : node.parent = .ok (some parent)) :
    ∃ place role, StandsIn node parent place role := by
  rw [exists_standsIn_iff]
  exact ⟨((parent_eq_some_iff ..).mp hparent).2, hlinked.mem_children_of_parent hparent⟩

theorem not_standsIn_of_top {node : Node} (hlinked : Linked node.file.cells)
    (hparent : node.parent = .ok none) (parent : Node) (place : Nat) (role : Role) :
    ¬ StandsIn node parent place role := by
  intro hslot
  rcases (exists_standsIn_iff ..).mp ⟨place, role, hslot⟩ with ⟨hfile, hchild⟩
  rw [parent_eq_none_iff, hlinked.parent_eq_none_iff _ _ (getElem?_id node)] at hparent
  exact hparent parent.id ⟨parent.cell, hfile ▸ getElem?_id parent, hchild⟩

end TreeQuery
