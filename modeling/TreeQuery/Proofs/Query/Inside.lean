import TreeQuery.Proofs.Query.Isomorphic

/-!
# Queries stay inside the file

Walks follow numbers that are stored in cells, and a number that no node of the file has
is an error. In a file that a recipe made there is no such number: a node is named after
it was added, so all slots and all links to parents lead to nodes of the file. Whoever
starts at a node of the file therefore never gets out of it, whichever way the walk
takes, and however the walks of a query depend on what was found on the way.

It was shown for two files with the same nodes that a walk in the one and the same walk
in the other succeed together. Every file has the same nodes as itself, under the same
numbers, and so its walks succeed. Queries about directives may fail, but only over the
directives, and their error then has a place in the file.

Text, modifiers and range of a node are read from its own cell. Nothing is followed for
them, and nothing can go wrong.

## Main definitions

* `Closed`: Every number that is stored belongs to a cell.
* `StaysInside`: Nothing that is asked about a node leaves its file.

## Theorems

* `Linked.closed`: Links that are right lead to cells that are there.
* `Alike.refl`: A node answers like itself.
* `Blames.ne_outOfFile`: A query that fails over directives has not left the file.
* `staysInside`: What is asked about a node of a file that a recipe made.
* `queries_stay_inside`: What is asked about the file and all its nodes.
-/

namespace TreeQuery

/-- Every number that is stored belongs to a cell: the numbers in the slots, and the links to the
    parents. -/
structure Closed (cells : Array Cell) : Prop where
  slot_lt : ∀ (id : NodeId) (cell : Cell), cells[id]? = some cell →
    ∀ child ∈ cell.form.children, child < cells.size
  link_lt : ∀ (id : NodeId) (cell : Cell), cells[id]? = some cell →
    ∀ parent, cell.parent = some parent → parent < cells.size

/-- Nothing that is asked about a node leaves its file. A query that may fail for other reasons does
    not fail for this one. -/
structure StaysInside (context : Context) (node : Node) : Prop where
  parent : ∃ above, node.parent = .ok above
  children : ∃ nodes, node.children = .ok nodes
  /-- The way up is not cut short by the number of steps that it may take. -/
  ancestors : ∃ nodes, node.ancestors = .ok nodes ∧ LeadsUp node nodes
  heritageClauses : ∃ nodes, node.heritageClauses = .ok nodes
  firstAbove : ∀ condition, ∃ found, node.firstAbove condition = .ok found
  isDestructured : ∃ answer, node.isDestructured = .ok answer
  isDiscarded : ∃ answer, node.isDiscarded = .ok answer
  isGlobal : ∃ answer, node.isGlobal = .ok answer
  hasGetter : ∃ answer, context.checker.hasGetter node = .ok answer
  hasSetter : ∃ answer, context.checker.hasSetter node = .ok answer
  baseExpression : ∃ base, node.baseExpression = .ok base
  isTupleReturnCall : ∀ outside, (context.run fun checker => checker.isTupleReturnCall node).1 ≠
    .error (.outOfFile outside)
  isInTupleReturn : ∀ outside, (context.run fun checker => checker.isInTupleReturn node).1 ≠
    .error (.outOfFile outside)
  baseType : ∀ outside, (context.run fun checker => checker.baseType node).1 ≠
    .error (.outOfFile outside)

-- Children come before the nodes that name them, and parents are nodes that name somebody.
theorem Linked.closed {cells : Array Cell} (h : Linked cells) : Closed cells := by
  refine ⟨fun id cell hcell child hchild => ?_, fun id cell hcell parent hparent => ?_⟩
  · have hnames : Names cells id child := ⟨cell, hcell, hchild⟩
    exact Nat.lt_trans (h.child_lt id child hnames) (lt_size_of_names hnames)
  · exact lt_size_of_names ((h.parent_eq_some_iff id cell hcell parent).mp hparent).1

theorem Isomorphic.refl (file : SourceFile) : Isomorphic (Equiv.refl NodeId) file file := by
  refine ⟨rfl, rfl, rfl, fun place => ?_⟩
  have hsame : Cell.rename (Equiv.refl NodeId) = id := by
    funext cell
    exact cell.rename_eq_self _ (fun _ _ => rfl) fun _ _ => rfl
  rw [hsame, Option.map_id]
  rfl

/-- A node answers like itself. -/
theorem Alike.refl (checker : Checker) (node : Node) (hlinked : Linked node.file.cells) :
    Alike (Equiv.refl NodeId) node.file node.file checker checker node node := by
  refine Counterpart.alike ⟨rfl, rfl, rfl⟩ (.refl node.file) hlinked fun other image hmatch => ?_
  rw [eq_of_place (hmatch.image_file_eq.trans hmatch.file_eq.symm) hmatch.id_eq]

-- An error over directives has a place, and leaving the file has none.
theorem Blames.ne_outOfFile {checker : Checker} {place : Node → Prop}
    {answer : Except QueryError α} (h : Blames checker place answer) (outside : OutOfFile) :
    answer ≠ .error (.outOfFile outside) := by
  intro hleft
  rcases h.located _ hleft with ⟨_, _, _, _, _, hdirective, _⟩
  exact absurd hdirective (by simp only [reduceCtorEq, not_false_eq_true])

theorem staysInside (context : Context) (node : Node) (hlinked : Linked node.file.cells) :
    StaysInside context node where
  parent := (Alike.refl context.checker node hlinked).parent.exists_ok
  children := hlinked.exists_children
  ancestors := exists_ancestors node hlinked
  heritageClauses := (Counterpart.heritageClauses ⟨rfl, rfl, rfl⟩ (.refl node.file)
    hlinked).exists_ok
  firstAbove condition := exists_firstAbove node condition hlinked
  isDestructured := (Alike.refl context.checker node hlinked).isDestructured.exists_ok
  isDiscarded := (Alike.refl context.checker node hlinked).isDiscarded.exists_ok
  isGlobal := (Alike.refl context.checker node hlinked).isGlobal.exists_ok
  hasGetter := (Alike.refl context.checker node hlinked).hasGetter.exists_ok
  hasSetter := (Alike.refl context.checker node hlinked).hasSetter.exists_ok
  baseExpression := exists_baseExpression node hlinked
  isTupleReturnCall := (blames_isTupleReturnCall context.checker node hlinked).ne_outOfFile
  isInTupleReturn := (blames_isInTupleReturn context.checker node hlinked).ne_outOfFile
  baseType := (blames_baseType context.checker node hlinked).ne_outOfFile

/-- In a file that a recipe made no stored number leads out of it. The root and the statements are
    found, whether the file is a module is answered, and nothing that is asked about a node leaves
    the file, whatever checker knows the types and whoever listens. -/
theorem queries_stay_inside (file : SourceFile) (h : file.Built) (context : Context) :
    Closed file.cells ∧ (∃ root, file.rootNode = .ok root) ∧
    (∃ nodes, file.statements = .ok nodes) ∧ (∃ answer, file.isModule = .ok answer) ∧
    ∀ node : Node, node.file = file → StaysInside context node := by
  have hlinked := h.linked
  rcases exists_root h with ⟨root, hroot, -⟩
  rcases (node_eq_ok_iff ..).mp hroot with ⟨rfl, hid⟩
  rcases hlinked.exists_children with ⟨nodes, hnodes⟩
  have hstatements : root.file.statements = .ok nodes :=
    (bind_eq_ok_iff ..).mpr ⟨root, hroot, hnodes⟩
  refine ⟨hlinked.closed, ⟨root, hroot⟩, ⟨nodes, hstatements⟩, ?_, ?_⟩
  · exact ⟨_, (map_eq_ok_iff ..).mpr ⟨nodes, hstatements, rfl⟩⟩
  · intro node hfile
    exact staysInside context node (hfile ▸ hlinked)

/-- A name that two calls share and a class whose base has a wrong directive: the way up from the
    name ends, and asking for the base fails over the directive only. -/
theorem queries_stay_inside_shared :
    ∃ (file : SourceFile) (name declaration : Node), file.Built ∧ Closed file.cells ∧
      file.node 0 = .ok name ∧ file.node 6 = .ok declaration ∧
      (∃ nodes, name.ancestors = .ok nodes ∧ LeadsUp name nodes) ∧
      ∀ outside, ((Context.silent (TypeTable.ofList [(3, Ty.object (Symbol.mk "A" ⟨0⟩
        [.plain "!Abstract"] none))]).checker).run fun checker =>
          checker.baseType declaration).1 ≠ .error (.outOfFile outside) := by
  have hbuilt : (SourceFile.mk "a.ts" #[⟨.identifier "f", .none, some 7, {}⟩,
      ⟨.callExpression 0 [], .none, some 8, {}⟩, ⟨.identifier "A", .none, some 3, {}⟩,
      ⟨.expressionWithTypeArguments 2, .none, some 4, {}⟩,
      ⟨.heritageClause .extendsKeyword [3], .none, some 6, {}⟩,
      ⟨.identifier "B", .none, some 6, {}⟩, ⟨.classDeclaration (some 5) [4], .none, some 8, {}⟩,
      ⟨.callExpression 0 [], .none, none, {}⟩, ⟨.sourceFile [1, 6], .none, none, {}⟩] 8 0).Built :=
    ⟨[.identifier "f", .call 0 [], .heritageClause .extendsKeyword ["A"],
      .classDeclaration "B" [4], .call 0 []], _, [1, 6], rfl, rfl⟩
  rcases queries_stay_inside _ hbuilt (Context.silent (TypeTable.ofList [(3, Ty.object
    (Symbol.mk "A" ⟨0⟩ [.plain "!Abstract"] none))]).checker) with ⟨hclosed, _, _, _, hinside⟩
  exact ⟨_, ⟨_, 0, by decide⟩, ⟨_, 6, by decide⟩, hbuilt, hclosed, rfl, rfl,
    (hinside ⟨_, 0, by decide⟩ rfl).ancestors, (hinside ⟨_, 6, by decide⟩ rfl).baseType⟩

-- A file that no recipe made may well lead out of itself.
example : (Node.mk ⟨"a.ts", #[⟨.callExpression 7 [], .none, none, {}⟩], 0, 0⟩ 0
    (by decide)).children = .error ⟨7, "a.ts"⟩ := rfl

end TreeQuery
