import TreeQuery.Proofs.Tree.Ancestors
import TreeQuery.Proofs.Tree.Role
import TreeQuery.Query.Statement

/-!
# Whose value is discarded

Whether the value of an expression is discarded is a matter of the place it stands in. The
value is discarded in three kinds of slots: the expression of a statement, the condition of
a `for` and its increment. In every other slot it is used, the other two of a `for`
included. In no slot at all there is nobody to use it.

The code does not know slots. It looks at the parent, which is the last node that names the
expression, and compares numbers with two slots of it. Where no node is used twice this
cannot go wrong: the parent is the only node that names the expression, and since it does
so once the expression has no second slot that the numbers could be mistaken for.

## Main definitions

* `Discards`: The slots whose values are discarded.

## Theorems

* `discards_iff_of_for`: The slots of a `for`, as the code tells them apart.
* `isDiscarded_of_standsIn`: The answer for a node in a slot.
* `discarded_is_decided_by_slot`: The answer for every node of a file.
-/

namespace TreeQuery

/-- The slots whose values are discarded, by the kind of the node that they belong to and by their
    role. -/
inductive Discards : Kind → Role → Prop
  | statement : Discards .expressionStatement .expression
  | condition : Discards .forStatement .condition
  | increment : Discards .forStatement .increment

-- Values are discarded below two kinds of nodes.
theorem form_of_discards {form : Form} {role : Role} (h : Discards form.kind role) :
    (∃ expression, form = .expressionStatement expression) ∨
      ∃ start condition increment body, form = .forStatement start condition increment body := by
  cases form with
  | expressionStatement expression => exact Or.inl ⟨expression, rfl⟩
  | forStatement start condition increment body =>
      exact Or.inr ⟨start, condition, increment, body, rfl⟩
  | _ => nomatch h

-- A `for` that names nobody twice: a number in one of its slots is the condition or the
-- increment only if it stands in that slot.
theorem discards_iff_of_for {start condition increment : Option NodeId} {body id : NodeId}
    {role : Role} (hnodup : (Form.forStatement start condition increment body).children.Nodup)
    (hslot : (role, id) ∈ (Form.forStatement start condition increment body).roles) :
    (condition = some id ∨ increment = some id) ↔ Discards .forStatement role := by
  have hno : ∀ role, role ≠ .condition → role ≠ .increment → ¬ Discards .forStatement role := by
    intro role hcondition hincrement hdiscards
    cases hdiscards with
    | condition => exact hcondition rfl
    | increment => exact hincrement rfl
  simp only [Form.children, List.nodup_append, List.mem_append, Option.mem_toList,
    List.mem_singleton] at hnodup
  rcases hnodup with ⟨⟨⟨_, _, hstart⟩, _, hincrement⟩, _, hbody⟩
  simp only [Form.roles, List.mem_append, List.mem_map, Option.mem_toList, Prod.mk.injEq,
    exists_eq_right_right, List.mem_singleton] at hslot
  rcases hslot with ((⟨hid, rfl⟩ | ⟨hid, rfl⟩) | ⟨hid, rfl⟩) | ⟨rfl, rfl⟩
  · refine iff_of_false ?_ (hno _ (by decide) (by decide))
    rintro (hother | hother)
    · exact hstart id hid id hother rfl
    · exact hincrement id (Or.inl hid) id hother rfl
  · exact iff_of_true (Or.inl hid) .condition
  · exact iff_of_true (Or.inr hid) .increment
  · refine iff_of_false ?_ (hno _ (by decide) (by decide))
    rintro (hother | hother)
    · exact hbody id (Or.inl (Or.inr hother)) id rfl rfl
    · exact hbody id (Or.inr hother) id rfl rfl

/-- The answer for a node in a slot is whether values are discarded there. -/
theorem isDiscarded_of_standsIn {node parent : Node} {place : Nat} {role : Role}
    (hbuilt : node.file.BuiltOnce) (hslot : StandsIn node parent place role) :
    ∃ answer, node.isDiscarded = .ok answer ∧ (answer = true ↔ Discards parent.kind role) := by
  have hparent := hslot.parent_eq hbuilt
  have hnodup := (hslot.1 ▸ hbuilt : parent.file.BuiltOnce).nodup_children
  have hmem := List.mem_of_getElem? hslot.2
  simp only [Node.isDiscarded, hparent, bind, Except.bind]
  split
  · rename_i expression hform
    rw [hform, Form.roles, List.mem_singleton, Prod.mk.injEq] at hmem
    refine ⟨true, rfl, iff_of_true rfl ?_⟩
    rw [Node.kind, hform, hmem.1]
    exact .statement
  · rename_i start condition increment body hform
    rw [hform] at hmem hnodup
    refine ⟨_, rfl, ?_⟩
    rw [Bool.or_eq_true, beq_iff_eq, beq_iff_eq, Node.kind, hform]
    exact discards_iff_of_for hnodup hmem
  · rename_i hstatement hfor
    refine ⟨false, rfl, iff_of_false Bool.false_ne_true fun hdiscards => ?_⟩
    rcases form_of_discards hdiscards with ⟨_, hform⟩ | ⟨_, _, _, _, hform⟩
    · exact hstatement _ hform
    · exact hfor _ _ _ _ hform

/-- Every node of a file in which no node is used twice stands in one slot at most, and there is an
    answer for it. It is yes if the node stands in no slot or in the expression of a statement, the
    condition of a `for` or its increment. In every other slot of any node it is no. -/
theorem discarded_is_decided_by_slot (node : Node) (h : node.file.BuiltOnce) :
    (∀ parent place role other second another, StandsIn node parent place role →
      StandsIn node other second another →
        parent = other ∧ place = second ∧ role = another) ∧
    ∃ answer, node.isDiscarded = .ok answer ∧
      (answer = true ↔ (∀ parent place role, ¬ StandsIn node parent place role) ∨
        ∃ parent place role, StandsIn node parent place role ∧ Discards parent.kind role) ∧
      ∀ parent place role, StandsIn node parent place role →
        (answer = true ↔ Discards parent.kind role) := by
  refine ⟨fun _ _ _ _ _ _ hslot hother => hslot.unique h hother, ?_⟩
  rcases exists_ancestors node h.linked with ⟨_, _, hup⟩
  cases hup with
  | top hparent =>
      have hno := not_standsIn_of_top h.linked hparent
      refine ⟨true, by rw [Node.isDiscarded, hparent]; rfl, iff_of_true rfl (Or.inl hno), ?_⟩
      exact fun parent place role hslot => absurd hslot (hno parent place role)
  | step hparent _ =>
      rcases exists_standsIn_of_parent h.linked hparent with ⟨place, role, hslot⟩
      rcases isDiscarded_of_standsIn h hslot with ⟨answer, hanswer, hiff⟩
      refine ⟨answer, hanswer, ?_, ?_⟩
      · rw [hiff]
        constructor
        · exact fun hdiscards => Or.inr ⟨_, place, role, hslot, hdiscards⟩
        · rintro (hno | ⟨parent, second, another, hother, hdiscards⟩)
          · exact absurd hslot (hno _ place role)
          · rcases hslot.unique h hother with ⟨rfl, _, rfl⟩
            exact hdiscards
      · intro parent second another hother
        rcases hslot.unique h hother with ⟨rfl, _, rfl⟩
        exact hiff

/-- A loop `for (s; c; i) {}` whose four slots hold different nodes: the values of `c` and `i` are
    discarded, and that of `s` is not. -/
theorem discarded_is_decided_by_slot_loop :
    ∃ file : SourceFile, file.BuiltOnce ∧ ∃ start condition increment loop : Node,
      (∀ node ∈ [start, condition, increment, loop], node.file = file) ∧
      StandsIn start loop 0 .start ∧ start.isDiscarded = .ok false ∧
      StandsIn condition loop 1 .condition ∧ condition.isDiscarded = .ok true ∧
      StandsIn increment loop 2 .increment ∧ increment.isDiscarded = .ok true ∧
      loop.kind = .forStatement := by
  have hbuilt : (SourceFile.mk "a.ts" #[⟨.identifier "s", .none, some 4, {}⟩,
      ⟨.identifier "c", .none, some 4, {}⟩, ⟨.identifier "i", .none, some 4, {}⟩,
      ⟨.block [], .none, some 4, {}⟩,
      ⟨.forStatement (some 0) (some 1) (some 2) 3, .none, some 5, {}⟩,
      ⟨.sourceFile [4], .none, none, {}⟩] 5 0).BuiltOnce :=
    ⟨[.identifier "s", .identifier "c", .identifier "i", .block [],
      .node (.forStatement (some 0) (some 1) (some 2) 3) .none], _, [4], rfl, rfl, by decide⟩
  rcases (discarded_is_decided_by_slot ⟨_, 0, by decide⟩ hbuilt).2 with ⟨start, hstart, _, hno⟩
  rcases (discarded_is_decided_by_slot ⟨_, 1, by decide⟩ hbuilt).2 with ⟨second, hsecond, _, hyes⟩
  rcases (discarded_is_decided_by_slot ⟨_, 2, by decide⟩ hbuilt).2 with ⟨third, hthird, _, hlast⟩
  have hfirst : start = false := by
    rw [← Bool.not_eq_true, hno ⟨_, 4, by decide⟩ 0 .start ⟨rfl, rfl⟩]
    exact fun hdiscards => nomatch hdiscards
  refine ⟨_, hbuilt, ⟨_, 0, by decide⟩, ⟨_, 1, by decide⟩, ⟨_, 2, by decide⟩, ⟨_, 4, by decide⟩,
    by simp, ⟨rfl, rfl⟩, hfirst ▸ hstart, ⟨rfl, rfl⟩, ?_, ⟨rfl, rfl⟩, ?_, rfl⟩
  · rw [hsecond, (hyes ⟨_, 4, by decide⟩ 1 .condition ⟨rfl, rfl⟩).mpr .condition]
  · rw [hthird, (hlast ⟨_, 4, by decide⟩ 2 .increment ⟨rfl, rfl⟩).mpr .increment]

end TreeQuery
