import TreeQuery.Proofs.Tree.Recipe
import TreeQuery.Proofs.Tree.Walk

/-!
# Links between parents and children

A tree stores its structure twice: a form lists the numbers of the children, and a
cell holds the number of the parent. The lists are written once and never change.
The links to the parents do change, since every later node that names a child
again takes it over. `Linked` says what is left in the end: a parent is the last
node that names its child, and only a node that nobody names has none.

A child is always there before the node that names it, so its number is smaller.
That is what makes every walk upwards end, and no node lie below itself.

Both hold of the empty draft and are kept by the two edits there are, hence by
every recipe at every point of it. Finishing is one more edit, and the node it adds
is the last and is named by nobody.

## Main definitions

* `Names`: A node has another one among its children.
* `Linked`: The two ways in which the structure is stored agree.
* `SourceFile.Built`: A file was made by a recipe.

## Theorems

* `names_extend`, `names_cover`: Who names whom after an edit.
* `linked_extend`, `linked_cover`: The edits keep the links right.
* `linked_run`: So does every recipe.
* `linked_finish`, `SourceFile.Built.linked`: The links of a file that a recipe made are right.
* `Linked.exists_child`: The slots of a node lead to nodes that come before it.
* `Linked.mem_children_of_parent`: The parent of a node has it in a slot.
* `Linked.parent_eq_of_names`: The parent of a node that a single node names.
* `root_of_finish`: The root of a finished file.
* `linked_throughout`: The links are right at every point of a recipe and in the
  finished file, whose root is its last node.
-/

namespace TreeQuery

/-- The node numbered `parent` has `child` among its children. -/
def Names (cells : Array Cell) (parent child : NodeId) : Prop :=
  ∃ cell, cells[parent]? = some cell ∧ child ∈ cell.form.children

/-- Children come before the nodes that name them, and the parent of a node is the last node that
    names it. -/
structure Linked (cells : Array Cell) : Prop where
  /-- A child has a smaller number than any node that names it. -/
  child_lt : ∀ parent child, Names cells parent child → child < parent
  /-- A node has a parent exactly if it is named, and then it is the last node that names it. -/
  parent_eq_some_iff : ∀ id cell, cells[id]? = some cell → ∀ parent,
    cell.parent = some parent ↔
      Names cells parent id ∧ ∀ other, Names cells other id → other ≤ parent
  /-- A node has no parent exactly if nobody names it. -/
  parent_eq_none_iff : ∀ id cell, cells[id]? = some cell →
    (cell.parent = none ↔ ∀ parent, ¬ Names cells parent id)

theorem lt_size_of_names {cells : Array Cell} {parent child : NodeId}
    (h : Names cells parent child) : parent < cells.size := by
  rcases h with ⟨cell, hcell, _⟩
  exact (Array.getElem?_eq_some_iff.mp hcell).1

-- Who names whom is read off the forms.
theorem names_iff_form (cells : Array Cell) (parent child : NodeId) :
    Names cells parent child ↔
      ∃ form, cells[parent]?.map Cell.form = some form ∧ child ∈ form.children := by
  constructor
  · intro hnames
    rcases hnames with ⟨cell, hcell, hchild⟩
    exact ⟨cell.form, by rw [hcell]; rfl, hchild⟩
  · intro hnames
    rcases hnames with ⟨form, hform, hchild⟩
    rcases Option.map_eq_some_iff.mp hform with ⟨cell, hcell, rfl⟩
    exact ⟨cell, hcell, hchild⟩

-- After an addition everybody names whom they named before, and the new node its children.
theorem names_extend (draft : Draft) (form : Form) (modifiers : ModifierFlags)
    (parent child : NodeId) :
    Names (draft.extend form modifiers).cells parent child ↔
      Names draft.cells parent child ∨ (parent = draft.size ∧ child ∈ form.children) := by
  rw [names_iff_form, Draft.form_extend]
  by_cases hparent : parent = draft.size
  · subst hparent
    have hold : ¬ Names draft.cells draft.size child := fun h =>
      Nat.lt_irrefl _ (lt_size_of_names h)
    rw [if_pos rfl]
    simp only [Option.some.injEq, exists_eq_left', hold, true_and, false_or]
  · rw [if_neg hparent, ← names_iff_form]
    simp only [hparent, false_and, or_false]

theorem names_cover (draft : Draft) (id : NodeId) (range : Range) (parent child : NodeId) :
    Names (draft.cover id range).cells parent child ↔ Names draft.cells parent child := by
  rw [names_iff_form, Draft.form_cover, ← names_iff_form]

-- The law of the parents for one node at a time, as it is shown: the link is empty and
-- nobody names the node, or it leads to the last node that does.
theorem linked_of_last (cells : Array Cell)
    (hdescend : ∀ parent child, Names cells parent child → child < parent)
    (hlast : ∀ id cell, cells[id]? = some cell →
      (cell.parent = none ∧ ∀ parent, ¬ Names cells parent id) ∨
        ∃ last, cell.parent = some last ∧ Names cells last id ∧
          ∀ other, Names cells other id → other ≤ last) :
    Linked cells := by
  refine ⟨hdescend, ?_, ?_⟩
  · intro id cell hcell parent
    rcases hlast id cell hcell with ⟨hnone, hnobody⟩ | ⟨last, hsome, hnames, hmax⟩
    · rw [hnone]
      exact ⟨fun h => absurd h (by simp only [reduceCtorEq, not_false_eq_true]),
        fun h => absurd h.1 (hnobody parent)⟩
    · rw [hsome, Option.some.injEq]
      constructor
      · rintro rfl
        exact ⟨hnames, hmax⟩
      · intro hgreatest
        rcases hgreatest with ⟨hparent, hgreatest⟩
        exact Nat.le_antisymm (hgreatest last hnames) (hmax parent hparent)
  · intro id cell hcell
    rcases hlast id cell hcell with ⟨hnone, hnobody⟩ | ⟨last, hsome, hnames, _⟩
    · exact ⟨fun _ => hnobody, fun _ => hnone⟩
    · rw [hsome]
      exact ⟨fun h => absurd h (by simp only [reduceCtorEq, not_false_eq_true]),
        fun h => absurd hnames (h last)⟩

-- One half of the law of the parents, in the form in which `linked_of_last` asks for it.
theorem Linked.last {cells : Array Cell} (h : Linked cells) (id : NodeId) (cell : Cell)
    (hcell : cells[id]? = some cell) :
    (cell.parent = none ∧ ∀ parent, ¬ Names cells parent id) ∨
      ∃ last, cell.parent = some last ∧ Names cells last id ∧
        ∀ other, Names cells other id → other ≤ last := by
  cases hparent : cell.parent with
  | none => exact Or.inl ⟨rfl, (h.parent_eq_none_iff id cell hcell).mp hparent⟩
  | some last => exact Or.inr ⟨last, rfl, (h.parent_eq_some_iff id cell hcell last).mp hparent⟩

theorem linked_empty : Linked ({} : Draft).cells := by
  refine linked_of_last _ ?_ ?_
  · rintro parent child ⟨cell, hcell, _⟩
    exact absurd hcell (by simp)
  · intro id cell hcell
    exact absurd hcell (by simp)

/-- An addition whose children are there keeps the links right. -/
theorem linked_extend (draft : Draft) (form : Form) (modifiers : ModifierFlags)
    (hchildren : ∀ child ∈ form.children, child < draft.size) (h : Linked draft.cells) :
    Linked (draft.extend form modifiers).cells := by
  have hdescend : ∀ parent child, Names (draft.extend form modifiers).cells parent child →
      child < parent := by
    intro parent child hnames
    rcases (names_extend ..).mp hnames with hold | ⟨rfl, hchild⟩
    · exact h.child_lt parent child hold
    · exact hchildren child hchild
  have hbound : ∀ parent child, Names (draft.extend form modifiers).cells parent child →
      parent ≤ draft.size := by
    intro parent child hnames
    rcases (names_extend ..).mp hnames with hold | ⟨rfl, _⟩
    · exact Nat.le_of_lt (lt_size_of_names hold)
    · exact Nat.le_refl _
  refine linked_of_last _ hdescend fun id cell hcell => ?_
  rw [Draft.getElem?_extend] at hcell
  by_cases hid : id = draft.size
  · -- Nobody names the new node: it comes after all the children there are.
    subst hid
    rw [if_pos rfl, Option.some.injEq] at hcell
    refine Or.inl ⟨by rw [← hcell], fun parent hnames => ?_⟩
    exact Nat.lt_irrefl _
      (Nat.lt_of_lt_of_le (hdescend _ _ hnames) (hbound _ _ hnames))
  · rw [if_neg hid] at hcell
    rcases Option.map_eq_some_iff.mp hcell with ⟨before, hbefore, rfl⟩
    by_cases hchild : id ∈ form.children
    · -- A child is taken over by the new node, which is later than all who named it before.
      rw [if_pos hchild]
      exact Or.inr ⟨draft.size, rfl, (names_extend ..).mpr (Or.inr ⟨rfl, hchild⟩),
        fun other hnames => hbound other id hnames⟩
    · rw [if_neg hchild]
      have hsame : ∀ parent, Names (draft.extend form modifiers).cells parent id ↔
          Names draft.cells parent id := fun parent => by
        rw [names_extend]
        simp only [hchild, and_false, or_false]
      simp only [hsame]
      exact h.last id before hbefore

-- Setting a range keeps the links right.
theorem linked_cover (draft : Draft) (id : NodeId) (range : Range) (h : Linked draft.cells) :
    Linked (draft.cover id range).cells := by
  refine linked_of_last _ ?_ ?_
  · intro parent child hnames
    exact h.child_lt parent child ((names_cover ..).mp hnames)
  · intro other cell hcell
    simp only [names_cover]
    rw [Draft.getElem?_cover] at hcell
    rcases Option.map_eq_some_iff.mp hcell with ⟨before, hbefore, rfl⟩
    by_cases hother : other = id
    · rw [if_pos hother]
      exact h.last other before hbefore
    · rw [if_neg hother]
      exact h.last other before hbefore

-- The links are right after every recipe.
theorem linked_run (steps : List Step) (draft next : Draft)
    (hrun : (draft.run steps).outcome = .ok next) (h : Linked draft.cells) : Linked next.cells :=
  run_induction (fun draft => Linked draft.cells) linked_extend
    (fun draft id range _ => linked_cover draft id range) steps draft next hrun h

-- They are right in the file that a recipe is finished to, which adds the program.
theorem linked_finish (steps : List Step) (draft : Draft) (name : String)
    (statements : List NodeId) (file : SourceFile)
    (hrun : (({} : Draft).run steps).outcome = .ok draft)
    (hfinish : draft.finish name statements = .ok file) : Linked file.cells := by
  rcases (finish_eq_ok_iff ..).mp hfinish with ⟨hstatements, rfl⟩
  exact linked_extend draft _ _ hstatements (linked_run steps {} draft hrun linked_empty)

/-- A file that a recipe made. A copy of the file counts as made by the same recipe. -/
def SourceFile.Built (file : SourceFile) : Prop :=
  ∃ (steps : List Step) (draft : Draft) (statements : List NodeId),
    (({} : Draft).run steps).outcome = .ok draft ∧
      draft.finish file.name statements = .ok { file with serial := 0 }

-- The links of a file that a recipe made are right.
theorem SourceFile.Built.linked {file : SourceFile} (h : file.Built) : Linked file.cells := by
  rcases h with ⟨steps, draft, statements, hrun, hfinish⟩
  exact linked_finish steps draft file.name statements { file with serial := 0 } hrun hfinish

-- A number in a slot of a node is smaller than the number of the node.
theorem Linked.lt_id {node : Node} (h : Linked node.file.cells) {id : NodeId}
    (hchild : id ∈ node.form.children) : id < node.id :=
  h.child_lt node.id id ⟨node.cell, getElem?_id node, hchild⟩

-- A number in a slot of a node leads to a node that comes before it.
theorem Linked.exists_child {node : Node} (h : Linked node.file.cells) {id : NodeId}
    (hchild : id ∈ node.form.children) :
    ∃ child, node.file.node id = .ok child ∧ child.id < node.id := by
  have hlt := h.lt_id hchild
  rcases exists_node node.file id (Nat.lt_trans hlt node.inFile) with ⟨child, hnode⟩
  refine ⟨child, hnode, ?_⟩
  rw [((node_eq_ok_iff ..).mp hnode).2]
  exact hlt

-- The parent of a node has the node in one of its slots.
theorem Linked.mem_children_of_parent {node above : Node} (h : Linked node.file.cells)
    (hparent : node.parent = .ok (some above)) : node.id ∈ above.form.children := by
  rcases (TreeQuery.parent_eq_some_iff ..).mp hparent with ⟨hlink, hfile⟩
  rcases ((h.parent_eq_some_iff _ _ (getElem?_id node) _).mp hlink).1 with ⟨cell, hcell, hchild⟩
  have habove := getElem?_id above
  rw [hfile, hcell, Option.some.injEq] at habove
  rw [Node.form, ← habove]
  exact hchild

-- Nobody names the last node of a draft, or one that is not there.
theorem Linked.not_names_of_size_le {draft : Draft} (h : Linked draft.cells) {child : NodeId}
    (hsize : draft.size ≤ child + 1) (parent : NodeId) : ¬ Names draft.cells parent child := by
  intro hnames
  have hlt := Nat.lt_of_lt_of_le (lt_size_of_names hnames) hsize
  exact Nat.not_lt_of_ge (Nat.le_of_lt_succ hlt) (h.child_lt parent child hnames)

-- A node that exactly one other names has that node for its parent.
theorem Linked.parent_eq_of_names {file : SourceFile} (h : Linked file.cells) {id place : NodeId}
    {node above : Node} (hnode : file.node id = .ok node) (habove : file.node place = .ok above)
    (hnames : ∀ parent, Names file.cells parent id ↔ parent = place) :
    node.parent = .ok (some above) := by
  rcases (node_eq_ok_iff ..).mp hnode with ⟨rfl, rfl⟩
  rcases (node_eq_ok_iff ..).mp habove with ⟨hfile, rfl⟩
  rw [TreeQuery.parent_eq_some_iff, h.parent_eq_some_iff _ _ (getElem?_id node)]
  exact ⟨⟨(hnames _).mpr rfl, fun other hother => Nat.le_of_eq ((hnames other).mp hother)⟩, hfile⟩

-- The root of a finished file is its last node, stands below no other, and has the
-- statements that the file was finished with as its children.
theorem root_of_finish (draft : Draft) (name : String) (statements : List NodeId)
    (file : SourceFile) (hfinish : draft.finish name statements = .ok file) :
    ∃ root nodes, file.rootNode = .ok root ∧ root.id + 1 = file.size ∧
      root.parent = .ok none ∧ root.children = .ok nodes ∧ nodes.map Node.id = statements := by
  rcases (finish_eq_ok_iff ..).mp hfinish with ⟨hstatements, hfile⟩
  have hcells : file.cells = (draft.extend (.sourceFile statements) .none).cells :=
    congrArg SourceFile.cells hfile
  have hroot : file.root = draft.size := congrArg SourceFile.root hfile
  have hsize : file.size = draft.size + 1 := by
    rw [SourceFile.size, hcells]
    exact Draft.size_extend ..
  have hlast : file.root < file.size := by
    rw [hroot, hsize]
    exact Nat.lt_succ_self _
  rcases exists_node file file.root hlast with ⟨root, hnode⟩
  rcases (node_eq_ok_iff ..).mp hnode with ⟨hin, hid⟩
  have hcell : root.cell = ⟨.sourceFile statements, .none, none, {}⟩ := by
    have hget := getElem?_id root
    rw [hin, hid, hroot, hcells, Draft.getElem?_extend, if_pos rfl, Option.some.injEq] at hget
    exact hget.symm
  have hform : root.form = .sourceFile statements := congrArg Cell.form hcell
  have hthere : ∀ id ∈ statements, id < file.size := by
    intro id hstatement
    rw [hsize]
    exact Nat.lt_succ_of_lt (hstatements id hstatement)
  rcases exists_nodes file statements hthere with ⟨nodes, hnodes⟩
  have hchildren : root.children = .ok nodes := by
    rw [Node.children, hform, hin]
    exact hnodes
  refine ⟨root, nodes, hnode, ?_, ?_, hchildren, ((nodes_eq_ok_iff ..).mp hnodes).2⟩
  · rw [hid, hroot, hsize]
  · rw [parent_eq_none_iff, hcell]

/-- The links are right at every point of a recipe, and in the file that it is finished to. There
    the root is the last node, has no parent, and has the given statements as its children. -/
theorem linked_throughout (steps : List Step) (draft : Draft)
    (hrun : (({} : Draft).run steps).outcome = .ok draft) :
    (∀ taken, taken <+: steps → ∃ reached,
      (({} : Draft).run taken).outcome = .ok reached ∧ Linked reached.cells) ∧
    ∀ name statements file, draft.finish name statements = .ok file →
      Linked file.cells ∧ ∃ root nodes, file.rootNode = .ok root ∧ root.id + 1 = file.size ∧
        root.parent = .ok none ∧ root.children = .ok nodes ∧ nodes.map Node.id = statements := by
  refine ⟨?_, ?_⟩
  · -- A point of the recipe is reached by the part of it that comes before.
    intro taken htaken
    rcases htaken with ⟨rest, rfl⟩
    rcases (run_append_eq_ok_iff ..).mp hrun with ⟨reached, hreached, _⟩
    exact ⟨reached, hreached, linked_run taken {} reached hreached linked_empty⟩
  · intro name statements file hfinish
    exact ⟨linked_finish steps draft name statements file hrun hfinish,
      root_of_finish draft name statements file hfinish⟩

/-- A name that two calls use, the first of them twice: it ends up below the second call. The first
    call is taken over from its block by the program. -/
theorem linked_throughout_shared :
    ∃ draft file,
      (({} : Draft).run [.identifier "f", .call 0 [0], .range 0 ⟨1, 2⟩, .call 0 [],
        .block [1]]).outcome = .ok draft ∧
      draft.finish "a.ts" [2, 1, 1] = .ok file ∧ Linked file.cells ∧
      file.cells.toList.map Cell.parent = [some 2, some 4, some 4, none, none] := by
  have hrun : (({} : Draft).run [.identifier "f", .call 0 [0], .range 0 ⟨1, 2⟩, .call 0 [],
      .block [1]]).outcome =
        .ok ⟨#[⟨.identifier "f", .none, some 2, ⟨1, 2⟩⟩, ⟨.callExpression 0 [0], .none, some 3, {}⟩,
          ⟨.callExpression 0 [], .none, none, {}⟩, ⟨.block [1], .none, none, {}⟩]⟩ := rfl
  exact ⟨_, _, hrun, rfl, ((linked_throughout _ _ hrun).2 "a.ts" [2, 1, 1] _ rfl).1, rfl⟩

end TreeQuery
