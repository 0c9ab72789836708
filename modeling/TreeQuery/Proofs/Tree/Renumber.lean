import Mathlib.Data.List.Basic
import Mathlib.Logic.Equiv.Defs
import TreeQuery.Proofs.Tree.Links
import TreeQuery.Query.BaseClass

/-!
# Other numbers for the same nodes

The number of a node is an accident of the order in which the nodes were added. What is
meant by a tree does not depend on it, as long as every number that is stored changes
along: the numbers in the slots, and the links to the parents.

Renaming the numbers of a form keeps everything else about it, and the slots stay where
they are. Two lists of cells have the same nodes under different numbers if the cell
with the new number is the old cell renamed. Edits keep this relation between two
drafts, provided that they are renamed too and that both drafts give the next number to
the next node.

## Main definitions

* `Form.rename`, `Cell.rename`, `Edit.rename`: Other numbers in a form, a cell, an edit.
* `Renumbered`: The same nodes under other numbers.

## Theorems

* `children_rename`, `kind_rename`, `text?_rename`, `heritage_rename`,
  `extended?_rename`: What a renamed form is like.
* `Form.rename_eq_self`, `Cell.rename_eq_self`: Numbers that stay change nothing.
* `Renumbered.lt_size_iff`: New numbers are there if the old ones are.
* `renumbered_extend`, `renumbered_cover`: The edits keep the relation.
* `exists_renumbered_edit`: So does every list of edits.
-/

namespace TreeQuery

/-- The form with other numbers in its slots. -/
def Form.rename (σ : NodeId → NodeId) : Form → Form
  | .sourceFile statements => .sourceFile (statements.map σ)
  | .identifier text => .identifier text
  | .numericLiteral text => .numericLiteral text
  | .stringLiteral text => .stringLiteral text
  | .classDeclaration name heritage => .classDeclaration (name.map σ) (heritage.map σ)
  | .heritageClause keyword types => .heritageClause keyword (types.map σ)
  | .expressionWithTypeArguments expression => .expressionWithTypeArguments (σ expression)
  | .functionDeclaration name parameters body =>
    .functionDeclaration (name.map σ) (parameters.map σ) (body.map σ)
  | .parameter name => .parameter (σ name)
  | .block statements => .block (statements.map σ)
  | .variableStatement declarations => .variableStatement (declarations.map σ)
  | .variableDeclaration name initialValue =>
    .variableDeclaration (σ name) (initialValue.map σ)
  | .arrayBindingPattern elements => .arrayBindingPattern (elements.map σ)
  | .bindingElement name => .bindingElement (σ name)
  | .expressionStatement expression => .expressionStatement (σ expression)
  | .returnStatement expression => .returnStatement (expression.map σ)
  | .forStatement start condition increment body =>
    .forStatement (start.map σ) (condition.map σ) (increment.map σ) (σ body)
  | .exportAssignment expression => .exportAssignment (σ expression)
  | .exportDeclaration source => .exportDeclaration (source.map σ)
  | .binaryExpression left operator right => .binaryExpression (σ left) operator (σ right)
  | .arrayLiteralExpression elements => .arrayLiteralExpression (elements.map σ)
  | .callExpression callee arguments => .callExpression (σ callee) (arguments.map σ)
  | .propertyAccessExpression object name => .propertyAccessExpression (σ object) (σ name)

/-- The cell with other numbers in its form and in its link to the parent. -/
def Cell.rename (σ : NodeId → NodeId) (cell : Cell) : Cell :=
  { cell with form := cell.form.rename σ, parent := cell.parent.map σ }

/-- The edit with other numbers. -/
def Edit.rename (σ : NodeId → NodeId) : Edit → Edit
  | .add form modifiers => .add (form.rename σ) modifiers
  | .cover id range => .cover (σ id) range

namespace Form

variable (σ : NodeId → NodeId) (form : Form)

theorem children_rename : (form.rename σ).children = form.children.map σ := by
  cases form <;> simp [rename, children, Option.toList_map]

theorem kind_rename : (form.rename σ).kind = form.kind := by
  cases form <;> rfl

theorem text?_rename : (form.rename σ).text? = form.text? := by
  cases form <;> rfl

theorem heritage_rename : (form.rename σ).heritage = form.heritage.map σ := by
  cases form <;> rfl

theorem extended?_rename :
    (form.rename σ).extended? = form.extended?.map (Option.map σ) := by
  cases form with
  | heritageClause keyword types =>
      cases keyword <;> simp [rename, extended?, List.head?_map]
  | _ => rfl

-- Numbers that stay what they are change nothing. A form has them one by one, in options and
-- in lists.
theorem rename_eq_self (h : ∀ child ∈ form.children, σ child = child) :
    form.rename σ = form := by
  have hlist : ∀ ids : List NodeId, (∀ id ∈ ids, σ id = id) → ids.map σ = ids :=
    fun ids hids => (List.map_congr_left hids).trans (List.map_id' ids)
  have hoption : ∀ id : Option NodeId, (∀ other, id = some other → σ other = other) →
      id.map σ = id := by
    intro id hid
    cases id with
    | none => rfl
    | some other => rw [Option.map_some, hid other rfl]
  cases form <;> simp_all [rename, children, or_imp, forall_and]

end Form

-- A cell stays what it is if its children and its parent keep their numbers.
theorem Cell.rename_eq_self (σ : NodeId → NodeId) (cell : Cell)
    (hchildren : ∀ child ∈ cell.form.children, σ child = child)
    (hparent : ∀ parent, cell.parent = some parent → σ parent = parent) :
    cell.rename σ = cell := by
  have hlink : cell.parent.map σ = cell.parent := by
    cases hcell : cell.parent with
    | none => rfl
    | some parent => rw [Option.map_some, hparent parent hcell]
  rw [Cell.rename, cell.form.rename_eq_self σ hchildren, hlink]

/-- The second list has the cells of the first, each under its new number and renamed. -/
structure Renumbered (σ : Equiv.Perm NodeId) (cells others : Array Cell) : Prop where
  size_eq : others.size = cells.size
  getElem?_eq : ∀ id, others[σ id]? = cells[id]?.map (Cell.rename σ)

variable {σ : Equiv.Perm NodeId}

theorem Renumbered.lt_size_iff {cells others : Array Cell} (h : Renumbered σ cells others)
    (id : NodeId) : σ id < others.size ↔ id < cells.size := by
  have hsome := congrArg Option.isSome (h.getElem?_eq id)
  rwa [Option.isSome_map, Bool.eq_iff_iff, isSome_getElem?, isSome_getElem?] at hsome

/-- Adding the same node, renamed, keeps two drafts renumbered if its number stays. -/
theorem renumbered_extend {draft other : Draft} (form : Form) (modifiers : ModifierFlags)
    (hsize : σ draft.size = draft.size) (h : Renumbered σ draft.cells other.cells) :
    Renumbered σ (draft.extend form modifiers).cells
      (other.extend (form.rename σ) modifiers).cells := by
  have hother : other.size = draft.size := h.size_eq
  refine ⟨?_, fun id => ?_⟩
  · change (other.extend _ _).size = (draft.extend _ _).size
    rw [Draft.size_extend, Draft.size_extend, hother]
  · have hnew : σ id = draft.size ↔ id = draft.size := by
      conv_lhs => rw [← hsize, σ.apply_eq_iff_eq]
    have hchild : σ id ∈ (form.rename σ).children ↔ id ∈ form.children := by
      rw [form.children_rename, List.mem_map_of_injective σ.injective]
    rw [Draft.getElem?_extend, Draft.getElem?_extend, h.getElem?_eq, hother]
    simp only [hnew, hchild]
    by_cases hid : id = draft.size
    · rw [if_pos hid, if_pos hid]
      rfl
    · rw [if_neg hid, if_neg hid, Option.map_map, Option.map_map]
      refine Option.map_congr fun cell _ => ?_
      by_cases hadopted : id ∈ form.children
      · simp only [Function.comp_apply, if_pos hadopted, Cell.rename, Option.map_some, hsize]
      · simp only [Function.comp_apply, if_neg hadopted]

theorem renumbered_cover {draft other : Draft} (id : NodeId) (range : Range)
    (h : Renumbered σ draft.cells other.cells) :
    Renumbered σ (draft.cover id range).cells (other.cover (σ id) range).cells := by
  refine ⟨?_, fun place => ?_⟩
  · change (other.cover _ _).size = (draft.cover _ _).size
    rw [Draft.size_cover, Draft.size_cover]
    exact h.size_eq
  · rw [Draft.getElem?_cover, Draft.getElem?_cover, h.getElem?_eq, Option.map_map, Option.map_map]
    refine Option.map_congr fun cell _ => ?_
    simp only [Function.comp_apply, σ.apply_eq_iff_eq]
    by_cases hplace : place = id
    · rw [if_pos hplace, if_pos hplace]
      rfl
    · rw [if_neg hplace, if_neg hplace]

/-- Edits that succeed also succeed on a renumbered draft when they are renamed, and lead to a
    renumbered draft. The numbers of nodes that are still to come must stay. -/
theorem exists_renumbered_edit (edits : List Edit) (draft other next : Draft)
    (hstay : ∀ id, draft.size ≤ id → σ id = id) (h : Renumbered σ draft.cells other.cells)
    (hedit : draft.edit edits = .ok next) :
    ∃ last, other.edit (edits.map (Edit.rename σ)) = .ok last ∧
      Renumbered σ next.cells last.cells := by
  induction edits generalizing draft other with
  | nil =>
      rw [edit_nil, Except.ok.injEq] at hedit
      rw [← hedit]
      exact ⟨other, edit_nil other, h⟩
  | cons edit rest ih =>
      rcases (edit_cons_eq_ok_iff ..).mp hedit with ⟨middle, hrun, hrest⟩
      -- It is enough that one edit leads to renumbered drafts, no smaller than before.
      have hstep : ∃ reached, (edit.rename σ).run other = .ok reached ∧
          Renumbered σ middle.cells reached.cells ∧ draft.size ≤ middle.size := by
        cases edit with
        | add form modifiers =>
            rcases (edit_add_eq_ok_iff ..).mp hrun with ⟨hchildren, rfl⟩
            refine ⟨_, (edit_add_eq_ok_iff ..).mpr ⟨?_, rfl⟩,
              renumbered_extend form modifiers (hstay _ (Nat.le_refl _)) h, ?_⟩
            · rw [form.children_rename]
              exact List.forall_mem_map.mpr fun child hchild =>
                (h.lt_size_iff child).mpr (hchildren child hchild)
            · rw [Draft.size_extend]
              exact Nat.le_succ _
        | cover id range =>
            rcases (edit_cover_eq_ok_iff ..).mp hrun with ⟨hid, rfl⟩
            refine ⟨_, (edit_cover_eq_ok_iff ..).mpr ⟨(h.lt_size_iff id).mpr hid, rfl⟩,
              renumbered_cover id range h, ?_⟩
            exact Nat.le_of_eq (Draft.size_cover ..).symm
      rcases hstep with ⟨reached, hreached, hsame, hsize⟩
      rcases ih middle reached (fun id hid => hstay id (Nat.le_trans hsize hid)) hsame hrest with
        ⟨last, hlast, hlater⟩
      exact ⟨last, (edit_cons_eq_ok_iff ..).mpr ⟨reached, hreached, hlast⟩, hlater⟩

end TreeQuery
