import TreeQuery.Proofs.Tree.Links

/-!
# The way up

The nodes above a node, described without counting steps. `LeadsUp` lists them from
the parent to the topmost, one parent at a time, and `NearestAbove` stops at the first
that satisfies a condition. Neither says how far a walk may go.

The walk itself may go as many steps as the file has nodes. In a file that a recipe
made this is always enough, because a parent comes later than its child: a node with
the number `n` has at most as many nodes above it as there are numbers behind `n`.
So the walk finds all of the list, and a search on it ends where it should.

## Main definitions

* `LeadsUp`: The nodes above a node, from its parent to the topmost.
* `NearestAbove`: The first node on the way up that satisfies a condition.

## Theorems

* `LeadsUp.unique`: There is one way up.
* `LeadsUp.find?_eq_some_iff`: A search on the way up finds the nearest node.
* `lt_of_parent`: A parent comes later and belongs to the file.
* `exists_climb`: The steps that are left are enough.
* `exists_ancestors`, `ancestors_eq_ok_iff`: The ancestors are the way up.
* `exists_firstAbove`, `firstAbove_eq_some_iff`: A search above a node ends, and finds
  the nearest node.
-/

namespace TreeQuery

/-- The nodes above a node, from its parent to the topmost. -/
inductive LeadsUp : Node → List Node → Prop
  | top {node : Node} (hparent : node.parent = .ok none) : LeadsUp node []
  | step {node above : Node} {rest : List Node} (hparent : node.parent = .ok (some above))
      (hrest : LeadsUp above rest) : LeadsUp node (above :: rest)

/-- The first node on the way up that satisfies a condition. -/
inductive NearestAbove (condition : Node → Bool) : Node → Node → Prop
  | here {node above : Node} (hparent : node.parent = .ok (some above))
      (hcondition : condition above = true) : NearestAbove condition node above
  | further {node above found : Node} (hparent : node.parent = .ok (some above))
      (hcondition : condition above = false) (hrest : NearestAbove condition above found) :
      NearestAbove condition node found

theorem LeadsUp.unique {node : Node} {left right : List Node} (hleft : LeadsUp node left)
    (hright : LeadsUp node right) : left = right := by
  induction hleft generalizing right with
  | top hparent =>
      cases hright with
      | top => rfl
      | step hother =>
          rw [hparent] at hother
          exact absurd hother (by simp only [Except.ok.injEq, reduceCtorEq, not_false_eq_true])
  | step hparent _ ih =>
      cases hright with
      | top hother =>
          rw [hparent] at hother
          exact absurd hother (by simp only [Except.ok.injEq, reduceCtorEq, not_false_eq_true])
      | step hother hrest =>
          rw [hparent, Except.ok.injEq, Option.some.injEq] at hother
          subst hother
          rw [ih hrest]

-- Every nearest node lies behind the first step.
theorem exists_parent_of_nearestAbove {condition : Node → Bool} {node found : Node}
    (h : NearestAbove condition node found) :
    ∃ above, node.parent = .ok (some above) ∧
      ((condition above = true ∧ above = found) ∨
        (condition above = false ∧ NearestAbove condition above found)) := by
  cases h with
  | here hparent hcondition => exact ⟨found, hparent, Or.inl ⟨hcondition, rfl⟩⟩
  | @further _ above _ hparent hcondition hrest =>
      exact ⟨above, hparent, Or.inr ⟨hcondition, hrest⟩⟩

-- The nearest node above a node with a known parent is the parent, or the nearest above it.
theorem nearestAbove_iff {condition : Node → Bool} {node above : Node} (found : Node)
    (hparent : node.parent = .ok (some above)) :
    NearestAbove condition node found ↔
      (condition above = true ∧ above = found) ∨
        (condition above = false ∧ NearestAbove condition above found) := by
  constructor
  · intro h
    rcases exists_parent_of_nearestAbove h with ⟨other, hother, hcases⟩
    rw [hparent, Except.ok.injEq, Option.some.injEq] at hother
    rw [hother]
    exact hcases
  · rintro (⟨hcondition, rfl⟩ | ⟨hcondition, hrest⟩)
    · exact NearestAbove.here hparent hcondition
    · exact NearestAbove.further hparent hcondition hrest

-- A search on the way up finds the nearest node that satisfies the condition.
theorem LeadsUp.find?_eq_some_iff {node : Node} {nodes : List Node} (condition : Node → Bool)
    (found : Node) (h : LeadsUp node nodes) :
    nodes.find? condition = some found ↔ NearestAbove condition node found := by
  induction h with
  | top hparent =>
      rw [List.find?_nil]
      constructor
      · intro hfound
        exact absurd hfound (by simp only [reduceCtorEq, not_false_eq_true])
      · intro hnearest
        rcases exists_parent_of_nearestAbove hnearest with ⟨above, hother, _⟩
        rw [hparent] at hother
        exact absurd hother (by simp only [Except.ok.injEq, reduceCtorEq, not_false_eq_true])
  | @step node above rest hparent _ ih =>
      rw [nearestAbove_iff found hparent]
      by_cases hcondition : condition above = true
      · rw [List.find?_cons_of_pos hcondition, Option.some.injEq]
        simp only [hcondition, true_and, Bool.true_eq_false, false_and, or_false]
      · rw [List.find?_cons_of_neg hcondition, ih]
        simp only [Bool.not_eq_true] at hcondition
        simp only [hcondition, Bool.false_eq_true, false_and, true_and, false_or]

-- A parent comes later than its child, and is there.
theorem lt_of_parent (node : Node) (id : NodeId) (hlinked : Linked node.file.cells)
    (hparent : node.cell.parent = some id) : node.id < id ∧ id < node.file.size := by
  have hnames := ((hlinked.parent_eq_some_iff node.id node.cell (getElem?_id node) id).mp hparent).1
  exact ⟨hlinked.child_lt id node.id hnames, lt_size_of_names hnames⟩

/-- A walk up arrives at the top if it may go as many steps as there are numbers behind the node
    that it starts from. -/
theorem exists_climb (steps : Nat) (node : Node) (hlinked : Linked node.file.cells)
    (hsteps : node.file.size ≤ steps + node.id + 1) :
    ∃ nodes, Node.climb node.file steps node.cell.parent = .ok nodes ∧ LeadsUp node nodes := by
  induction steps generalizing node with
  | zero =>
      cases hparent : node.cell.parent with
      | none => exact ⟨[], rfl, LeadsUp.top ((parent_eq_none_iff node).mpr hparent)⟩
      | some id =>
          -- No number is left for a parent.
          rcases lt_of_parent node id hlinked hparent with ⟨hlt, hthere⟩
          rw [Nat.zero_add] at hsteps
          exact absurd (Nat.lt_of_lt_of_le hthere hsteps) (Nat.not_lt_of_ge hlt)
  | succ left ih =>
      cases hparent : node.cell.parent with
      | none => exact ⟨[], rfl, LeadsUp.top ((parent_eq_none_iff node).mpr hparent)⟩
      | some id =>
          rcases lt_of_parent node id hlinked hparent with ⟨hlt, hthere⟩
          rcases exists_node node.file id hthere with ⟨above, habove⟩
          rcases (node_eq_ok_iff ..).mp habove with ⟨hsame, rfl⟩
          have hleft : node.file.size ≤ left + above.id + 1 := by
            refine Nat.le_trans hsteps ?_
            rw [Nat.add_right_comm left 1 node.id, Nat.add_assoc left node.id 1]
            exact Nat.succ_le_succ (Nat.add_le_add_left hlt left)
          have hrest := ih above (by rw [hsame]; exact hlinked) (by rw [hsame]; exact hleft)
          rw [hsame] at hrest
          rcases hrest with ⟨rest, hclimb, hrest⟩
          have hstep := (parent_eq_some_iff node above).mpr ⟨hparent, hsame⟩
          refine ⟨above :: rest, ?_, LeadsUp.step hstep hrest⟩
          simp only [Node.climb, bind_eq_ok_iff]
          exact ⟨above, habove, rest, hclimb, rfl⟩

theorem exists_ancestors (node : Node) (hlinked : Linked node.file.cells) :
    ∃ nodes, node.ancestors = .ok nodes ∧ LeadsUp node nodes :=
  exists_climb node.file.size node hlinked (by rw [Nat.add_assoc]; exact Nat.le_add_right ..)

theorem ancestors_eq_ok_iff (node : Node) (nodes : List Node) (hlinked : Linked node.file.cells) :
    node.ancestors = .ok nodes ↔ LeadsUp node nodes := by
  rcases exists_ancestors node hlinked with ⟨found, hfound, hup⟩
  rw [hfound, Except.ok.injEq]
  constructor
  · rintro rfl
    exact hup
  · exact hup.unique

theorem exists_firstAbove (node : Node) (condition : Node → Bool)
    (hlinked : Linked node.file.cells) : ∃ result, node.firstAbove condition = .ok result := by
  rcases exists_ancestors node hlinked with ⟨nodes, hnodes, _⟩
  exact ⟨nodes.find? condition, (map_eq_ok_iff ..).mpr ⟨nodes, hnodes, rfl⟩⟩

/-- A search above a node finds the nearest node that satisfies the condition. -/
theorem firstAbove_eq_some_iff (node : Node) (condition : Node → Bool) (found : Node)
    (hlinked : Linked node.file.cells) :
    node.firstAbove condition = .ok (some found) ↔ NearestAbove condition node found := by
  rcases exists_ancestors node hlinked with ⟨nodes, hnodes, hup⟩
  rw [Node.firstAbove, map_eq_ok_iff, ← hup.find?_eq_some_iff condition found]
  simp only [hnodes, Except.ok.injEq, exists_eq_left']

end TreeQuery
