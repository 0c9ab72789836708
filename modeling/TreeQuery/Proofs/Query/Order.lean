import TreeQuery.Proofs.History
import TreeQuery.Proofs.Query.Isomorphic
import TreeQuery.Proofs.Tree.Exchange

/-!
# The order of independent additions

Two neighbouring additions of a recipe that do not depend on each other can be carried out
in the other order. The numbers of the two nodes are exchanged everywhere else: in the
edits that follow, in the statements of the program, and in the table of types. What comes
out is the same file under exchanged numbers, and nothing that can be asked of it tells
the two orders apart.

Nothing is assumed about how the rest of the recipe uses its nodes. It may put them into
several slots, and it may set the same range twice.

## Theorems

* `corresponds_ofList`: Tables with exchanged numbers know the same types.
* `order_of_independent`: The order of two independent additions makes no difference.
-/

namespace TreeQuery

/-- A table that is filled under other numbers knows the same types of corresponding nodes. -/
theorem corresponds_ofList (σ : Equiv.Perm NodeId) (file other : SourceFile)
    (types : List (NodeId × Ty)) :
    Checker.Corresponds σ file other (TypeTable.ofList types).checker
      (TypeTable.ofList (types.map fun entry => (σ entry.1, entry.2))).checker := by
  intro node image h
  have hkey : (fun entry : NodeId × Ty => decide (σ entry.1 = σ node.id)) =
      fun entry => decide (entry.1 = node.id) := by
    funext entry
    exact decide_eq_decide.mpr σ.apply_eq_iff_eq
  simp only [TypeTable.checker, TypeTable.ofList, OrderedMap.find?_ofList, List.filter_map,
    List.getLast?_map, Option.map_map, h.id_eq, Function.comp_def, hkey]

/-- If the second of two neighbouring additions does not name the first node, and no child is named
    by both, they can be carried out in the other order. The run succeeds like the one in the given
    order, and so does finishing the program with the two numbers exchanged. Every node of the one
    file has a counterpart in the other, and the two are alike. -/
theorem order_of_independent (steps : List Step) (pair : Neighbours)
    (hsteps : recipeEdits 0 steps = pair.edits) (hindependent : pair.Independent) (draft : Draft)
    (hrun : (({} : Draft).run steps).outcome = .ok draft) (name : String)
    (statements : List NodeId) (file : SourceFile)
    (hfinish : draft.finish name statements = .ok file) :
    ∃ last result, (({} : Draft).run (pair.exchanged.map Edit.step)).outcome = .ok last ∧
      last.finish name (statements.map pair.exchange) = .ok result ∧
      Isomorphic pair.exchange file result ∧
      (∀ node : Node, node.file = file →
        ∃ image, Counterpart pair.exchange file result node image) ∧
      (∀ image : Node, image.file = result →
        ∃ node, Counterpart pair.exchange file result node image) ∧
      Agree Eq file.isModule result.isModule ∧
      ∀ (types : List (NodeId × Ty)) node image, Counterpart pair.exchange file result node image →
        Alike pair.exchange file result (TypeTable.ofList types).checker
          (TypeTable.ofList (types.map fun entry => (pair.exchange entry.1, entry.2))).checker
          node image := by
  rcases Neighbours.exists_exchanged_file hindependent hsteps hrun hfinish with
    ⟨last, result, hlast, hresult, hsame⟩
  have hlinked : Linked file.cells := by
    rcases (finish_eq_ok_iff ..).mp hfinish with ⟨hstatements, rfl⟩
    exact linked_extend draft _ _ hstatements (linked_run steps {} draft hrun linked_empty)
  have hroot : file.root < file.size := by
    rcases root_of_finish draft name statements file hfinish with ⟨root, _, hroot, _⟩
    rcases (node_eq_ok_iff ..).mp hroot with ⟨rfl, hid⟩
    rw [← hid]
    exact root.inFile
  exact ⟨last, result, hlast, hresult, hsame, exists_image hsame, exists_preimage hsame,
    hsame.isModule hlinked hroot, fun types node image h =>
      h.alike hsame hlinked (corresponds_ofList pair.exchange file result types)⟩

/-- The argument of a call is added before the callee. The range of the callee, which was set
    between the two, is set after both. -/
theorem order_of_independent_argument :
    ∃ draft file last result,
      (({} : Draft).run [.identifier "f", .range 0 ⟨1, 2⟩, .identifier "g", .call 0 [1],
        .expressionStatement 2]).outcome = .ok draft ∧
      draft.finish "a.ts" [3] = .ok file ∧
      (({} : Draft).run [.node (.identifier "g") .none, .node (.identifier "f") .none,
        .range 1 ⟨1, 2⟩, .node (.callExpression 1 [0]) .none,
        .node (.expressionStatement 2) .none]).outcome = .ok last ∧
      last.finish "a.ts" [3] = .ok result ∧ Isomorphic (Equiv.swap 0 1) file result := by
  rcases order_of_independent
    [.identifier "f", .range 0 ⟨1, 2⟩, .identifier "g", .call 0 [1], .expressionStatement 2]
    ⟨[], .identifier "f", .none, [.cover 0 ⟨1, 2⟩], .identifier "g", .none,
      [.add (.callExpression 0 [1]) .none, .add (.expressionStatement 2) .none], rfl⟩
    rfl ⟨by decide, by decide⟩ _ rfl "a.ts" [3] _ rfl with
    ⟨last, result, hlast, hresult, hsame, _⟩
  exact ⟨_, _, last, result, rfl, rfl, hlast, hresult, hsame⟩

end TreeQuery
