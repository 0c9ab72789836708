import TreeQuery.Proofs.Tree.Ancestors

/-!
# The end of the way up

Links to parents are rewritten for as long as a tree is built, so the loop that follows
them carries no measure that would show it to stop. The measure is in the numbers. A
parent always comes later than its child, also where a child is shared and was taken over
several times, and no number of a file is as large as the number of its nodes.

So the numbers grow at every step up, and the way up is over before they run out. It never
comes back to the node that it started from. A search that stops at the first node that
satisfies a condition stops at the one with the smallest number, and to say which one that
is takes no walk at all.

## Main definitions

* `Lowest`: The node with the smallest number among those that satisfy a condition.

## Theorems

* `lt_of_parent_eq`: One step up leads to a greater number in the same file.
* `LeadsUp.ascending`: The numbers on the way up grow from each node to the next.
* `LeadsUp.length_lt`: There are fewer nodes on the way up than numbers behind its start.
* `find?_eq_some_iff_lowest`: A search among growing numbers finds the smallest one.
* `walking_up_ends`: The way up ends, and a search on it finds the nearest match.
-/

namespace TreeQuery

/-- The node is the one with the smallest number among those in the list that satisfy the
    condition. -/
structure Lowest (condition : Node → Bool) (nodes : List Node) (found : Node) : Prop where
  mem : found ∈ nodes
  satisfies : condition found = true
  least : ∀ other ∈ nodes, condition other = true → found.id ≤ other.id

/-- One step up leads to a greater number in the same file. -/
theorem lt_of_parent_eq {node above : Node} (hlinked : Linked node.file.cells)
    (hparent : node.parent = .ok (some above)) :
    node.id < above.id ∧ above.file = node.file := by
  rcases (parent_eq_some_iff node above).mp hparent with ⟨hlink, hfile⟩
  exact ⟨(lt_of_parent node above.id hlinked hlink).1, hfile⟩

namespace LeadsUp

variable {node : Node} {nodes : List Node}

-- By induction on the way up. What comes behind the parent has a greater number than the parent.
theorem lt_id_of_mem (h : LeadsUp node nodes) (hlinked : Linked node.file.cells) :
    ∀ above ∈ nodes, node.id < above.id := by
  induction h with
  | top => exact List.forall_mem_nil _
  | step hparent _ ih =>
      rcases lt_of_parent_eq hlinked hparent with ⟨hlt, hfile⟩
      refine List.forall_mem_cons.mpr ⟨hlt, fun further hfurther => ?_⟩
      exact Nat.lt_trans hlt (ih (hfile ▸ hlinked) further hfurther)

/-- The numbers on the way up grow from each node to the next, from the first one on. -/
theorem ascending (h : LeadsUp node nodes) (hlinked : Linked node.file.cells) :
    ((node :: nodes).map Node.id).Pairwise (· < ·) := by
  have hfirst := h.lt_id_of_mem hlinked
  induction h with
  | top => exact List.pairwise_singleton _ _
  | step hparent hrest ih =>
      have hlinked := (lt_of_parent_eq hlinked hparent).2 ▸ hlinked
      rw [List.map_cons, List.pairwise_cons]
      exact ⟨List.forall_mem_map.mpr hfirst, ih hlinked (hrest.lt_id_of_mem hlinked)⟩

/-- There are no more nodes on the way up than there are numbers behind the node it starts from. -/
theorem length_lt (h : LeadsUp node nodes) (hlinked : Linked node.file.cells) :
    nodes.length + node.id < node.file.size := by
  induction h with
  | @top node =>
      rw [List.length_nil, Nat.zero_add]
      exact node.inFile
  | @step node above rest hparent _ ih =>
      rcases lt_of_parent_eq hlinked hparent with ⟨hlt, hfile⟩
      have hrest := ih (hfile ▸ hlinked)
      rw [hfile] at hrest
      -- One node more, and a number that is smaller by one at least.
      refine Nat.lt_of_le_of_lt ?_ hrest
      rw [List.length_cons, Nat.succ_add_eq_add_succ]
      exact Nat.add_le_add_left hlt rest.length

end LeadsUp

/-- Where the numbers grow, the first node that satisfies a condition is the lowest one. -/
theorem find?_eq_some_iff_lowest {nodes : List Node}
    (hascending : (nodes.map Node.id).Pairwise (· < ·)) (condition : Node → Bool) (found : Node) :
    nodes.find? condition = some found ↔ Lowest condition nodes found := by
  induction nodes with
  | nil =>
      rw [List.find?_nil]
      constructor
      · intro hfound
        exact absurd hfound (by simp only [reduceCtorEq, not_false_eq_true])
      · intro hlowest
        exact absurd hlowest.mem List.not_mem_nil
  | cons first rest ih =>
      rw [List.map_cons, List.pairwise_cons] at hascending
      rcases hascending with ⟨hfirst, hrest⟩
      have hbehind : ∀ other ∈ rest, first.id < other.id := List.forall_mem_map.mp hfirst
      by_cases hcondition : condition first = true
      · rw [List.find?_cons_of_pos hcondition, Option.some.injEq]
        constructor
        · rintro rfl
          refine ⟨List.mem_cons_self, hcondition, List.forall_mem_cons.mpr ⟨?_, ?_⟩⟩
          · exact fun _ => Nat.le_refl _
          · exact fun other hother _ => Nat.le_of_lt (hbehind other hother)
        · intro hlowest
          -- No node behind the first one has a number as small.
          have hle := hlowest.least first List.mem_cons_self hcondition
          rcases List.mem_cons.mp hlowest.mem with hsame | hlater
          · exact hsame.symm
          · exact absurd (hbehind found hlater) (Nat.not_lt_of_ge hle)
      · rw [List.find?_cons_of_neg hcondition, ih hrest]
        constructor
        · intro hlowest
          refine ⟨List.mem_cons_of_mem first hlowest.mem, hlowest.satisfies, ?_⟩
          exact List.forall_mem_cons.mpr ⟨fun h => absurd h hcondition, hlowest.least⟩
        · intro hlowest
          refine ⟨?_, hlowest.satisfies, fun other hother =>
            hlowest.least other (List.mem_cons_of_mem first hother)⟩
          rcases List.mem_cons.mp hlowest.mem with hsame | hlater
          · exact absurd (hsame ▸ hlowest.satisfies) hcondition
          · exact hlater

/-- Walking up from a node of a built file ends. Every node on the way is the parent of the one
    before it, the last has no parent, and the numbers grow, so there are at most as many nodes as
    there are numbers behind the first one. A search finds the node with the smallest number among
    those on the way that satisfy its condition. It finds none if there are none, and it never finds
    the node that it starts from. -/
theorem walking_up_ends (node : Node) (h : node.file.Built) :
    ∃ nodes, node.ancestors = .ok nodes ∧ LeadsUp node nodes ∧
      ((node :: nodes).map Node.id).Pairwise (· < ·) ∧
      nodes.length ≤ node.file.size - 1 - node.id ∧
      ∀ condition : Node → Bool,
        (∃ result, node.firstAbove condition = .ok result) ∧
        (∀ found, node.firstAbove condition = .ok (some found) ↔ Lowest condition nodes found) ∧
        (node.firstAbove condition = .ok none ↔ ∀ above ∈ nodes, condition above = false) ∧
        node.firstAbove condition ≠ .ok (some node) := by
  have hlinked := h.linked
  rcases exists_ancestors node hlinked with ⟨nodes, hnodes, hup⟩
  have hascending := hup.ascending hlinked
  refine ⟨nodes, hnodes, hup, hascending, ?_, fun condition => ?_⟩
  · exact Nat.le_sub_of_add_le (Nat.le_pred_of_lt (hup.length_lt hlinked))
  have hsearch : node.firstAbove condition = .ok (nodes.find? condition) :=
    (map_eq_ok_iff ..).mpr ⟨nodes, hnodes, rfl⟩
  have hfound (found : Node) :
      node.firstAbove condition = .ok (some found) ↔ Lowest condition nodes found := by
    rw [hsearch, Except.ok.injEq]
    exact find?_eq_some_iff_lowest (List.Pairwise.of_cons hascending) condition found
  refine ⟨⟨_, hsearch⟩, hfound, ?_, fun hself => ?_⟩
  · rw [hsearch, Except.ok.injEq, List.find?_eq_none]
    simp only [Bool.not_eq_true]
  · have hmem := ((hfound node).mp hself).mem
    exact Nat.lt_irrefl _ (hup.lt_id_of_mem hlinked node hmem)

/-- A statement that two blocks name, the inner of them first: the way up goes from it to the outer
    block, so that is the block around the name in the statement. -/
theorem walking_up_ends_shared :
    ∃ (node outer : Node) (nodes : List Node), node.file.Built ∧ node.id = 0 ∧
      node.ancestors = .ok nodes ∧ nodes.map Node.id = [1, 2, 4, 5] ∧ LeadsUp node nodes ∧
      outer.id = 4 ∧ Lowest (·.is .block) nodes outer ∧
      (Node.firstAbove node (·.is .functionDeclaration) = .ok none ∧
        ∀ above ∈ nodes, above.is .functionDeclaration = false) := by
  have hbuilt : (SourceFile.mk "a.ts" #[⟨.identifier "f", .none, some 1, {}⟩,
      ⟨.callExpression 0 [], .none, some 2, {}⟩, ⟨.expressionStatement 1, .none, some 4, {}⟩,
      ⟨.block [2], .none, some 4, {}⟩, ⟨.block [3, 2], .none, some 5, {}⟩,
      ⟨.sourceFile [4], .none, none, {}⟩] 5 0).Built :=
    ⟨[.identifier "f", .call 0 [], .expressionStatement 1, .block [2], .block [3, 2]], _, [4], rfl,
      rfl⟩
  rcases walking_up_ends ⟨_, 0, by decide⟩ hbuilt with ⟨nodes, hnodes, hup, _, _, hsearch⟩
  have hids : Except.ok [1, 2, 4, 5] = Except.ok (nodes.map Node.id) :=
    congrArg (Except.map (List.map Node.id)) hnodes
  have houter := ((hsearch (·.is .block)).2.1 ⟨_, 4, by decide⟩).mp rfl
  have hnone := ((hsearch (·.is .functionDeclaration)).2.2.1).mp rfl
  exact ⟨_, _, nodes, hbuilt, rfl, hnodes, (Except.ok.inj hids).symm, hup, rfl, houter, rfl, hnone⟩

end TreeQuery
