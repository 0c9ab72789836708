import TreeQuery.Proofs.Outcome
import TreeQuery.Tree.File

/-!
# Walks inside a file

Following numbers in a file, told by where the walk arrives. A place is its file
and its number, so following one number arrives at the place with that number, and
following a list of them at the places in the same order. Either succeeds exactly
if the numbers belong to the file.

## Theorems

* `node_eq_ok_iff`: Where one number leads.
* `exists_node_of_cell`: What stands at a number.
* `nodes_eq_ok_iff`: Where a list of numbers leads.
* `exists_nodes`: Numbers of the file lead somewhere.
* `parent_eq_none_iff`, `parent_eq_some_iff`: Where the way up leads.
* `children_eq_ok_iff`: Where the ways down lead.
-/

namespace TreeQuery

theorem node_eq_ok_iff (file : SourceFile) (id : NodeId) (node : Node) :
    file.node id = .ok node ↔ node.file = file ∧ node.id = id := by
  rw [SourceFile.node]
  constructor
  · intro h
    by_cases hid : id < file.cells.size
    · rw [dif_pos hid, Except.ok.injEq] at h
      rw [← h]
      exact ⟨rfl, rfl⟩
    · rw [dif_neg hid] at h
      exact absurd h (by simp only [reduceCtorEq, not_false_eq_true])
  · rintro ⟨rfl, rfl⟩
    rw [dif_pos node.inFile]

theorem exists_node (file : SourceFile) (id : NodeId) (h : id < file.size) :
    ∃ node, file.node id = .ok node :=
  ⟨⟨file, id, h⟩, (node_eq_ok_iff ..).mpr ⟨rfl, rfl⟩⟩

-- A number with a cell leads to a node that is what the cell says.
theorem exists_node_of_cell {file : SourceFile} {id : NodeId} {cell : Cell}
    (h : file.cells[id]? = some cell) : ∃ node, file.node id = .ok node ∧ node.cell = cell := by
  rcases Array.getElem?_eq_some_iff.mp h with ⟨hin, hcell⟩
  exact ⟨⟨file, id, hin⟩, (node_eq_ok_iff ..).mpr ⟨rfl, rfl⟩, hcell⟩

theorem nodes_eq_ok_iff (file : SourceFile) (ids : List NodeId) (nodes : List Node) :
    file.nodes ids = .ok nodes ↔
      (∀ node ∈ nodes, node.file = file) ∧ nodes.map Node.id = ids := by
  induction ids generalizing nodes with
  | nil =>
      simp only [SourceFile.nodes, List.mapM_nil, pure, Except.pure, Except.ok.injEq]
      constructor
      · rintro rfl
        exact ⟨by simp only [List.not_mem_nil, false_implies, implies_true], rfl⟩
      · intro hplaces
        rcases hplaces with ⟨_, hids⟩
        exact (List.map_eq_nil_iff.mp hids).symm
  | cons id rest ih =>
      have hsplit : file.nodes (id :: rest) = .ok nodes ↔
          ∃ first, file.node id = .ok first ∧
            ∃ others, file.nodes rest = .ok others ∧ first :: others = nodes := by
        simp only [SourceFile.nodes, List.mapM_cons, bind_eq_ok_iff, pure, Except.pure,
          Except.ok.injEq]
      rw [hsplit]
      constructor
      · intro hwalk
        rcases hwalk with ⟨first, hfirst, others, hothers, rfl⟩
        rcases (node_eq_ok_iff ..).mp hfirst with ⟨hfile, hid⟩
        rcases (ih others).mp hothers with ⟨hfiles, hids⟩
        refine ⟨List.forall_mem_cons.mpr ⟨hfile, hfiles⟩, ?_⟩
        rw [List.map_cons, hid, hids]
      · intro hplaces
        rcases hplaces with ⟨hfiles, hids⟩
        rcases List.map_eq_cons_iff.mp hids with ⟨first, others, rfl, hid, hrest⟩
        rcases List.forall_mem_cons.mp hfiles with ⟨hfile, hfiles⟩
        exact ⟨first, (node_eq_ok_iff ..).mpr ⟨hfile, hid⟩, others,
          (ih others).mpr ⟨hfiles, hrest⟩, rfl⟩

theorem exists_nodes (file : SourceFile) (ids : List NodeId) (h : ∀ id ∈ ids, id < file.size) :
    ∃ nodes, file.nodes ids = .ok nodes := by
  induction ids with
  | nil => exact ⟨[], rfl⟩
  | cons id rest ih =>
      rcases List.forall_mem_cons.mp h with ⟨hid, hrest⟩
      rcases ih hrest with ⟨others, hothers⟩
      rcases exists_node file id hid with ⟨first, hfirst⟩
      rw [nodes_eq_ok_iff] at hothers
      rw [node_eq_ok_iff] at hfirst
      refine ⟨first :: others, (nodes_eq_ok_iff ..).mpr ⟨?_, ?_⟩⟩
      · exact List.forall_mem_cons.mpr ⟨hfirst.1, hothers.1⟩
      · rw [List.map_cons, hfirst.2, hothers.2]

-- The cell of a place is the one with its number.
theorem getElem?_id (node : Node) : node.file.cells[node.id]? = some node.cell :=
  Array.getElem?_eq_getElem node.inFile

theorem parent_eq_none_iff (node : Node) : node.parent = .ok none ↔ node.cell.parent = none := by
  rw [Node.parent]
  cases node.cell.parent with
  | none => simp only
  | some id => simp only [map_eq_ok_iff, reduceCtorEq, and_false, exists_false]

theorem parent_eq_some_iff (node above : Node) :
    node.parent = .ok (some above) ↔
      node.cell.parent = some above.id ∧ above.file = node.file := by
  rw [Node.parent]
  cases node.cell.parent with
  | none => simp only [Except.ok.injEq, reduceCtorEq, false_and]
  | some id =>
      simp only [map_eq_ok_iff, Option.some.injEq, exists_eq_right, node_eq_ok_iff]
      rw [and_comm, @eq_comm _ id]

theorem children_eq_ok_iff (node : Node) (nodes : List Node) :
    node.children = .ok nodes ↔
      (∀ child ∈ nodes, child.file = node.file) ∧ nodes.map Node.id = node.form.children :=
  nodes_eq_ok_iff ..

end TreeQuery
