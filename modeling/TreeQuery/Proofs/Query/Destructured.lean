import TreeQuery.Proofs.Tree.Ancestors
import TreeQuery.Query.Destructuring

/-!
# The two sides of a destructuring

A node that takes an array apart has a left side, which is a pattern or an array literal,
and a value. A declaration may lack the value, an assignment never does.

Whether a node is destructured is asked of its parent alone. In a file that a recipe made
a node stands in a slot of its parent, so where the parent takes an array apart the node is
its left side or its value, and either of them is answered with yes. The answer tells the
value from everything else in the program except from the pattern that it is taken apart
by.

## Main definitions

* `Destructures`: A node takes an array apart, with its left side and its value.
* `IsDestructuredValue`, `IsDestructuringTarget`: A node is the one or the other.

## Theorems

* `Destructures.children_eq`: The slots of a node that takes an array apart.
* `isDestructured_of_parent`: The answer is whether the parent takes an array apart.
* `both_sides_are_destructured`: The nodes for which the answer is yes.
* `pattern_is_destructured`: A pattern is not the value, and the answer is yes.
-/

namespace TreeQuery

/-- A node takes an array apart: it is a declaration of a pattern of names, which may have a value,
    or an assignment to an array literal. -/
inductive Destructures (parent : Node) : (left : NodeId) → (value : Option NodeId) → Prop
  | declaration {left : NodeId} {value : Option NodeId} (pattern : Node) :
      parent.form = .variableDeclaration left value → parent.file.node left = .ok pattern →
      pattern.kind = .arrayBindingPattern → Destructures parent left value
  | assignment {left right : NodeId} (target : Node) :
      parent.form = .binaryExpression left .equalsToken right →
      parent.file.node left = .ok target → target.kind = .arrayLiteralExpression →
      Destructures parent left (some right)

/-- The node is the value that its parent takes apart. -/
def IsDestructuredValue (node : Node) : Prop :=
  ∃ parent left, node.parent = .ok (some parent) ∧ Destructures parent left (some node.id)

/-- The node is what its parent takes an array apart by. -/
def IsDestructuringTarget (node : Node) : Prop :=
  ∃ parent value, node.parent = .ok (some parent) ∧ Destructures parent node.id value

theorem Destructures.children_eq {parent : Node} {left : NodeId} {value : Option NodeId}
    (h : Destructures parent left value) : parent.form.children = left :: value.toList := by
  cases h with
  | declaration _ hform _ _ => rw [hform, Form.children]
  | assignment _ hform _ _ => rw [hform, Form.children, Option.toList_some]

-- A node takes an array apart in one way, since its slots are what they are.
theorem Destructures.unique {parent : Node} {left other : NodeId} {value second : Option NodeId}
    (h : Destructures parent left value) (h' : Destructures parent other second) :
    left = other ∧ value = second := by
  have hslots := h.children_eq.symm.trans h'.children_eq
  rw [List.cons.injEq] at hslots
  refine ⟨hslots.1, Option.ext fun id => ?_⟩
  rw [← Option.mem_toList, hslots.2, Option.mem_toList]

-- Below a parent that takes an array apart the two sides are told by their numbers.
theorem isDestructuringTarget_iff {node parent : Node} {left : NodeId} {value : Option NodeId}
    (hparent : node.parent = .ok (some parent)) (h : Destructures parent left value) :
    IsDestructuringTarget node ↔ node.id = left := by
  constructor
  · rintro ⟨other, second, hother, hdestructures⟩
    rw [hparent, Except.ok.injEq, Option.some.injEq] at hother
    exact ((hother ▸ hdestructures : Destructures parent _ _).unique h).1
  · rintro rfl
    exact ⟨parent, value, hparent, h⟩

theorem isDestructuredValue_iff {node parent : Node} {left : NodeId} {value : Option NodeId}
    (hparent : node.parent = .ok (some parent)) (h : Destructures parent left value) :
    IsDestructuredValue node ↔ value = some node.id := by
  constructor
  · rintro ⟨other, second, hother, hdestructures⟩
    rw [hparent, Except.ok.injEq, Option.some.injEq] at hother
    exact (h.unique (hother ▸ hdestructures)).2
  · rintro rfl
    exact ⟨parent, left, hparent, h⟩

-- A declaration takes an array apart if its left side is a pattern.
theorem destructures_of_declaration {parent side : Node} {name : NodeId} {value : Option NodeId}
    (hform : parent.form = .variableDeclaration name value)
    (hside : parent.file.node name = .ok side) :
    side.is .arrayBindingPattern = true ↔ ∃ left value, Destructures parent left value := by
  rw [Node.is, beq_iff_eq]
  constructor
  · exact fun hkind => ⟨name, value, .declaration side hform hside hkind⟩
  · rintro ⟨left, other, ⟨pattern, hother, hpattern, hkind⟩ | ⟨target, hother, _, _⟩⟩
    · rw [hform, Form.variableDeclaration.injEq] at hother
      rw [← hother.1, hside, Except.ok.injEq] at hpattern
      rwa [hpattern]
    · rw [hform] at hother
      exact absurd hother (by simp only [reduceCtorEq, not_false_eq_true])

-- An assignment takes an array apart if its left side is an array literal.
theorem destructures_of_assignment {parent side : Node} {left right : NodeId}
    (hform : parent.form = .binaryExpression left .equalsToken right)
    (hside : parent.file.node left = .ok side) :
    side.is .arrayLiteralExpression = true ↔ ∃ left value, Destructures parent left value := by
  rw [Node.is, beq_iff_eq]
  constructor
  · exact fun hkind => ⟨left, some right, .assignment side hform hside hkind⟩
  · rintro ⟨_, other, ⟨pattern, hother, _, _⟩ | ⟨target, hother, htarget, hkind⟩⟩
    · rw [hform] at hother
      exact absurd hother (by simp only [reduceCtorEq, not_false_eq_true])
    · rw [hform, Form.binaryExpression.injEq] at hother
      rw [← hother.1, hside, Except.ok.injEq] at htarget
      rwa [htarget]

/-- The answer for a node below a parent is whether the parent takes an array apart. -/
theorem isDestructured_of_parent {node parent : Node} (hlinked : Linked parent.file.cells)
    (hparent : node.parent = .ok (some parent)) :
    ∃ answer, node.isDestructured = .ok answer ∧
      (answer = true ↔ ∃ left value, Destructures parent left value) := by
  simp only [Node.isDestructured, hparent, bind, Except.bind]
  split
  · rename_i name value hform
    rcases hlinked.exists_child (by rw [hform]; exact List.mem_cons_self) with ⟨side, hside, _⟩
    rw [hside]
    exact ⟨_, rfl, destructures_of_declaration hform hside⟩
  · rename_i left right hform
    rcases hlinked.exists_child (by rw [hform]; exact List.mem_cons_self) with ⟨side, hside, _⟩
    rw [hside]
    exact ⟨_, rfl, destructures_of_assignment hform hside⟩
  · rename_i hdeclaration hassignment
    refine ⟨false, rfl, iff_of_false Bool.false_ne_true ?_⟩
    rintro ⟨left, value, ⟨_, hform, _, _⟩ | ⟨_, hform, _, _⟩⟩
    · exact hdeclaration _ _ hform
    · exact hassignment _ _ hform

-- A node below a parent that takes an array apart is its value or its left side.
theorem exists_destructures_iff {node parent : Node} (hlinked : Linked node.file.cells)
    (hparent : node.parent = .ok (some parent)) :
    (∃ left value, Destructures parent left value) ↔
      IsDestructuredValue node ∨ IsDestructuringTarget node := by
  constructor
  · intro hdestructures
    rcases hdestructures with ⟨left, value, hdestructures⟩
    have hslot := hlinked.mem_children_of_parent hparent
    rw [hdestructures.children_eq, List.mem_cons, Option.mem_toList] at hslot
    rw [isDestructuredValue_iff hparent hdestructures,
      isDestructuringTarget_iff hparent hdestructures]
    exact hslot.symm
  · rintro (⟨other, left, hother, hdestructures⟩ | ⟨other, value, hother, hdestructures⟩)
    · rw [hparent, Except.ok.injEq, Option.some.injEq] at hother
      exact ⟨left, some node.id, hother ▸ hdestructures⟩
    · rw [hparent, Except.ok.injEq, Option.some.injEq] at hother
      exact ⟨node.id, value, hother ▸ hdestructures⟩

theorem isDestructured_of_top {node : Node} (hparent : node.parent = .ok none) :
    node.isDestructured = .ok false ∧ ¬ IsDestructuredValue node ∧
      ¬ IsDestructuringTarget node := by
  have hno : ∀ parent, node.parent ≠ .ok (some parent) := by
    intro parent hother
    rw [hparent, Except.ok.injEq] at hother
    exact absurd hother (by simp only [reduceCtorEq, not_false_eq_true])
  refine ⟨by rw [Node.isDestructured, hparent]; rfl, ?_, ?_⟩
  · rintro ⟨parent, _, hother, _⟩
    exact hno parent hother
  · rintro ⟨parent, _, hother, _⟩
    exact hno parent hother

/-- In a file that a recipe made there is an answer for every node. It is yes for the values that
    are taken apart, and also for the patterns and array literals that they are taken apart by. So
    it tells the values among the nodes that are no such pattern or literal. -/
theorem both_sides_are_destructured (node : Node) (h : node.file.Built) :
    ∃ answer, node.isDestructured = .ok answer ∧
      (answer = true ↔ IsDestructuredValue node ∨ IsDestructuringTarget node) ∧
      (¬ IsDestructuringTarget node → (answer = true ↔ IsDestructuredValue node)) := by
  have hlinked := h.linked
  rcases exists_ancestors node hlinked with ⟨_, _, hup⟩
  cases hup with
  | top hparent =>
      rcases isDestructured_of_top hparent with ⟨hanswer, hvalue, htarget⟩
      refine ⟨false, hanswer, iff_of_false Bool.false_ne_true ?_, fun _ => ?_⟩
      · exact not_or.mpr ⟨hvalue, htarget⟩
      · exact iff_of_false Bool.false_ne_true hvalue
  | step hparent _ =>
      have hfile := ((parent_eq_some_iff ..).mp hparent).2
      rcases isDestructured_of_parent (hfile ▸ hlinked) hparent with ⟨answer, hanswer, hiff⟩
      have hsides := hiff.trans (exists_destructures_iff hlinked hparent)
      exact ⟨answer, hanswer, hsides, fun hnot => hsides.trans (or_iff_left hnot)⟩

/-- The right side of an assignment to an array literal is taken apart, and the answer for it is
    yes. -/
theorem both_sides_are_destructured_assignment :
    ∃ value : Node, value.file.Built ∧ value.form = .identifier "f" ∧
      IsDestructuredValue value ∧ value.isDestructured = .ok true := by
  have hbuilt : (SourceFile.mk "a.ts" #[⟨.arrayLiteralExpression [], .none, some 2, {}⟩,
      ⟨.identifier "f", .none, some 2, {}⟩,
      ⟨.binaryExpression 0 .equalsToken 1, .none, some 3, {}⟩,
      ⟨.expressionStatement 2, .none, some 4, {}⟩, ⟨.sourceFile [3], .none, none, {}⟩] 4 0).Built :=
    ⟨[.node (.arrayLiteralExpression []) .none, .identifier "f", .binary 0 .equalsToken 1,
      .expressionStatement 2], _, [3], rfl, rfl⟩
  rcases both_sides_are_destructured ⟨_, 1, by decide⟩ hbuilt with ⟨answer, hanswer, _, hiff⟩
  have hvalue := hiff <| mt (isDestructuringTarget_iff rfl
    (.assignment ⟨_, 0, by decide⟩ rfl rfl rfl)).mp (by decide)
  have hyes := hvalue.mpr <| (isDestructuredValue_iff rfl
    (.assignment ⟨_, 0, by decide⟩ rfl rfl rfl)).mpr rfl
  exact ⟨_, hbuilt, rfl, hvalue.mp hyes, hyes ▸ hanswer⟩

/-- A pattern is no value that is taken apart, and the answer for it is yes. -/
theorem pattern_is_destructured :
    ∃ pattern : Node, pattern.file.Built ∧ pattern.form = .arrayBindingPattern [1] ∧
      ¬ IsDestructuredValue pattern ∧ IsDestructuringTarget pattern ∧
      pattern.isDestructured = .ok true := by
  have hbuilt : (SourceFile.mk "a.ts" #[⟨.identifier "a", .none, some 1, {}⟩,
      ⟨.bindingElement 0, .none, some 2, {}⟩, ⟨.arrayBindingPattern [1], .none, some 4, {}⟩,
      ⟨.numericLiteral "1", .none, some 4, {}⟩,
      ⟨.variableDeclaration 2 (some 3), .none, some 5, {}⟩,
      ⟨.variableStatement [4], .none, some 6, {}⟩,
      ⟨.sourceFile [5], .none, none, {}⟩] 6 0).Built :=
    ⟨[.arrayBindingPattern ["a"], .numericLiteral "1", .variableStatement 2 (some 3)], _, [5],
      rfl, rfl⟩
  refine ⟨⟨_, 2, by decide⟩, hbuilt, rfl, ?_, ?_, rfl⟩
  · exact mt (isDestructuredValue_iff rfl (.declaration ⟨_, 2, by decide⟩ rfl rfl rfl)).mp
      (by decide)
  · exact (isDestructuringTarget_iff rfl (.declaration ⟨_, 2, by decide⟩ rfl rfl rfl)).mpr rfl

end TreeQuery
