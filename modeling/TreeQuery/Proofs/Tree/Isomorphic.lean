import TreeQuery.Proofs.Tree.Ancestors
import TreeQuery.Proofs.Tree.Renumber

/-!
# Files with the same nodes

Two files whose cells are the same up to the numbers, and whose roots correspond, have
the same nodes. Every node of the one has a counterpart in the other, with the same
content under other numbers.

Walks from a node and from its counterpart go alongside each other. They succeed together
and arrive at counterparts, one by one and in the same order: up to the parent, down to
the children, and all the way up. The numbers that the walks follow belong to the first
file because its links are right, and then the new numbers belong to the second.

## Main definitions

* `Isomorphic`: Two files have the same nodes.
* `Counterpart`: The same node in both files.

## Theorems

* `exists_image`, `exists_preimage`: Every node has a counterpart.
* `Counterpart.cell_eq`: A counterpart has the same cell, renamed.
* `agree_node`, `agree_nodes`: Corresponding numbers lead to counterparts.
* `Counterpart.parent`, `Counterpart.children`, `Counterpart.heritageClauses`,
  `Counterpart.ancestors`, `Counterpart.firstAbove`: So do the walks from counterparts.
-/

namespace TreeQuery

/-- The second file has the nodes of the first under the numbers that `σ` gives them. -/
structure Isomorphic (σ : Equiv.Perm NodeId) (file other : SourceFile) : Prop where
  name_eq : other.name = file.name
  root_eq : other.root = σ file.root
  renumbered : Renumbered σ file.cells other.cells

/-- A node of the first file, and the node of the second that has its new number. -/
structure Counterpart (σ : Equiv.Perm NodeId) (file other : SourceFile) (node image : Node) :
    Prop where
  file_eq : node.file = file
  image_file_eq : image.file = other
  id_eq : image.id = σ node.id

variable {σ : Equiv.Perm NodeId} {file other : SourceFile}

/-- Corresponding numbers lead to counterparts. -/
theorem agree_node (h : Isomorphic σ file other) {id : NodeId} (hid : id < file.size) :
    Agree (Counterpart σ file other) (file.node id) (other.node (σ id)) := by
  rcases exists_node file id hid with ⟨node, hnode⟩
  rcases exists_node other (σ id) ((h.renumbered.lt_size_iff id).mpr hid) with ⟨image, himage⟩
  refine ⟨node, image, hnode, himage, ?_⟩
  rw [node_eq_ok_iff] at hnode himage
  exact ⟨hnode.1, himage.1, by rw [himage.2, hnode.2]⟩

/-- Every node has a counterpart. -/
theorem exists_image (h : Isomorphic σ file other) (node : Node) (hfile : node.file = file) :
    ∃ image, Counterpart σ file other node image := by
  subst hfile
  rcases agree_node h node.inFile with ⟨found, image, hfound, himage, _⟩
  rcases (node_eq_ok_iff ..).mp himage with ⟨himage, hid⟩
  exact ⟨image, rfl, himage, hid⟩

/-- Every node is a counterpart. -/
theorem exists_preimage (h : Isomorphic σ file other) (image : Node) (hfile : image.file = other) :
    ∃ node, Counterpart σ file other node image := by
  have hid : σ (σ.symm image.id) < other.cells.size := by
    rw [σ.apply_symm_apply, ← hfile]
    exact image.inFile
  have hin := (h.renumbered.lt_size_iff _).mp hid
  exact ⟨⟨file, σ.symm image.id, hin⟩, rfl, hfile, (σ.apply_symm_apply image.id).symm⟩

theorem agree_nodes (h : Isomorphic σ file other) (ids : List NodeId)
    (hids : ∀ id ∈ ids, id < file.size) :
    Agree (List.Forall₂ (Counterpart σ file other)) (file.nodes ids) (other.nodes (ids.map σ)) := by
  induction ids with
  | nil => exact Agree.pure List.Forall₂.nil
  | cons id rest ih =>
      rcases List.forall_mem_cons.mp hids with ⟨hid, hrest⟩
      rw [List.map_cons, SourceFile.nodes, SourceFile.nodes, List.mapM_cons, List.mapM_cons]
      exact (agree_node h hid).bind fun _ _ hfirst => (ih hrest).bind fun _ _ hothers =>
        Agree.pure (List.Forall₂.cons hfirst hothers)

namespace Counterpart

variable {node image : Node} (h : Counterpart σ file other node image)

section Content

variable (hsame : Isomorphic σ file other)

include h hsame

/-- A counterpart has the same cell, renamed. -/
theorem cell_eq : image.cell = node.cell.rename σ := by
  have hget := getElem?_id image
  rw [h.image_file_eq, h.id_eq, hsame.renumbered.getElem?_eq, ← h.file_eq, getElem?_id,
    Option.map_some, Option.some.injEq] at hget
  exact hget.symm

theorem form_eq : image.form = node.form.rename σ :=
  congrArg Cell.form (h.cell_eq hsame)

theorem link_eq : image.cell.parent = node.cell.parent.map σ :=
  congrArg Cell.parent (h.cell_eq hsame)

theorem kind_eq : image.kind = node.kind := by
  rw [Node.kind, h.form_eq hsame, Form.kind_rename]
  rfl

theorem is_eq (kind : Kind) : image.is kind = node.is kind := by
  rw [Node.is, Node.is, h.kind_eq hsame]

theorem modifiers_eq : image.cell.modifiers = node.cell.modifiers := by
  rw [h.cell_eq hsame]
  rfl

theorem range_eq : image.range = node.range := by
  rw [Node.range, h.cell_eq hsame]
  rfl

end Content

section Walks

variable (hsame : Isomorphic σ file other) (hlinked : Linked file.cells)

include h hlinked

-- The numbers that are stored in a node belong to its file.
theorem child_lt : ∀ id ∈ node.form.children, id < file.size := by
  intro id hid
  rw [← h.file_eq] at hlinked ⊢
  exact Nat.lt_trans (hlinked.lt_id hid) node.inFile

theorem parent_lt : ∀ id, node.cell.parent = some id → id < file.size := by
  intro id hid
  rw [← h.file_eq] at hlinked ⊢
  exact (lt_of_parent node id hlinked hid).2

include hsame

theorem children :
    Agree (List.Forall₂ (Counterpart σ file other)) node.children image.children := by
  rw [Node.children, Node.children, h.form_eq hsame, Form.children_rename, h.file_eq,
    h.image_file_eq]
  exact agree_nodes hsame _ (h.child_lt hlinked)

theorem heritageClauses :
    Agree (List.Forall₂ (Counterpart σ file other)) node.heritageClauses
      image.heritageClauses := by
  rw [Node.heritageClauses, Node.heritageClauses, h.form_eq hsame, Form.heritage_rename, h.file_eq,
    h.image_file_eq]
  exact agree_nodes hsame _ fun id hid =>
    h.child_lt hlinked id (node.form.heritage_subset_children hid)

theorem parent : Agree (Option.Rel (Counterpart σ file other)) node.parent image.parent := by
  rw [Node.parent, Node.parent, h.link_eq hsame, h.file_eq, h.image_file_eq]
  cases hparent : node.cell.parent with
  | none => exact Agree.pure Option.Rel.none
  | some id =>
      exact (agree_node hsame (h.parent_lt hlinked id hparent)).map fun _ _ => Option.Rel.some

end Walks

end Counterpart

-- Walks up from corresponding numbers. The induction is on the steps that are left.
theorem agree_climb (hsame : Isomorphic σ file other) (hlinked : Linked file.cells) (steps : Nat)
    (next : Option NodeId) (hnext : ∀ id, next = some id → id < file.size) :
    Agree (List.Forall₂ (Counterpart σ file other)) (Node.climb file steps next)
      (Node.climb other steps (next.map σ)) := by
  induction steps generalizing next with
  | zero => cases next <;> exact Agree.pure List.Forall₂.nil
  | succ left ih =>
      cases next with
      | none => exact Agree.pure List.Forall₂.nil
      | some id =>
          refine (agree_node hsame (hnext id rfl)).bind fun node image hmatch => ?_
          rw [hmatch.link_eq hsame]
          exact (ih node.cell.parent (hmatch.parent_lt hlinked)).bind fun _ _ hrest =>
            Agree.pure (List.Forall₂.cons hmatch hrest)

namespace Counterpart

variable {node image : Node} (h : Counterpart σ file other node image)
  (hsame : Isomorphic σ file other) (hlinked : Linked file.cells)

include h hsame hlinked

theorem ancestors :
    Agree (List.Forall₂ (Counterpart σ file other)) node.ancestors image.ancestors := by
  have hsize : other.size = file.size := hsame.renumbered.size_eq
  rw [Node.ancestors, Node.ancestors, h.link_eq hsame, h.file_eq, h.image_file_eq, hsize]
  exact agree_climb hsame hlinked file.size node.cell.parent (h.parent_lt hlinked)

/-- Searches for nodes that correspond find counterparts. -/
theorem firstAbove {condition : Node → Bool}
    (hcondition : ∀ node image, Counterpart σ file other node image →
      condition image = condition node) :
    Agree (Option.Rel (Counterpart σ file other)) (node.firstAbove condition)
      (image.firstAbove condition) := by
  refine (h.ancestors hsame hlinked).map fun nodes images hall => ?_
  induction hall with
  | nil => exact Option.Rel.none
  | @cons first found rest others hfirst _ ih =>
      rw [List.find?_cons, List.find?_cons, hcondition first found hfirst]
      cases condition first with
      | true => exact Option.Rel.some hfirst
      | false => exact ih

end Counterpart

end TreeQuery
