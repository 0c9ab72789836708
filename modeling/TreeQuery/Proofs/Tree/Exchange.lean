import Mathlib.Logic.Equiv.Basic
import TreeQuery.Proofs.Tree.Isomorphic

/-!
# Additions in the other order

Two nodes that are added one after the other may as well be added in the other order, if
the second does not name the first and no child is named by both. Each of them then gets
the number of the other, and whatever comes later has to be told: in the later edits, and
in the statements of the program, the two numbers are exchanged.

Right after the two additions the drafts have the same nodes under exchanged numbers. A
child of the one is no child of the other, so it makes no difference which of them takes
its children over first. From there on renamed edits keep the drafts alike.

Parts of the text that are set between the two additions are set after them. They are
about nodes that an addition leaves alone.

## Main definitions

* `Neighbours`: Two additions in a list of edits, with no other addition between them.
* `Neighbours.exchanged`: The edits with the two additions in the other order.
* `Neighbours.Independent`: The order of the two makes no difference.
* `Edit.step`: The step of a recipe that consists of one edit.

## Theorems

* `recipeEdits_map_step`: Every list of edits is a recipe.
* `renumbered_exchange`: Right after the two additions.
* `cover_extend`, `edit_extend`: Ranges may be set before an addition or after it.
* `Neighbours.exists_before`: What the given edits do.
* `Neighbours.exists_exchanged_edit`: The exchanged edits lead to the same nodes.
* `Neighbours.exists_exchanged_file`: So do the files that the drafts are finished to.
-/

namespace TreeQuery

/-- The step that consists of one edit. -/
def Edit.step : Edit → Step
  | .add form modifiers => .node form modifiers
  | .cover id range => .range id range

theorem recipeEdits_map_step (size : Nat) (edits : List Edit) :
    recipeEdits size (edits.map Edit.step) = edits := by
  induction edits generalizing size with
  | nil => rfl
  | cons edit rest ih =>
      rw [List.map_cons, recipeEdits, ih]
      cases edit with
      | add form modifiers => rfl
      | cover id range => rfl

/-- Two additions in a list of edits, with no other addition between them. -/
structure Neighbours where
  before : List Edit
  first : Form
  firstModifiers : ModifierFlags
  between : List Edit
  second : Form
  secondModifiers : ModifierFlags
  after : List Edit
  /-- Nothing but ranges is set between the two. -/
  added_between : added between = 0

namespace Neighbours

/-- The edits in the order in which they are given. -/
def edits (pair : Neighbours) : List Edit :=
  pair.before ++ .add pair.first pair.firstModifiers ::
    (pair.between ++ .add pair.second pair.secondModifiers :: pair.after)

/-- The number of the first node; the second has the next one. -/
def place (pair : Neighbours) : NodeId :=
  added pair.before

/-- The exchange of the two numbers. -/
def exchange (pair : Neighbours) : Equiv.Perm NodeId :=
  Equiv.swap pair.place (pair.place + 1)

/-- The edits with the second addition before the first, and with the two numbers exchanged in
    everything that follows. -/
def exchanged (pair : Neighbours) : List Edit :=
  pair.before ++ .add pair.second pair.secondModifiers :: .add pair.first pair.firstModifiers ::
    (pair.between ++ pair.after).map (Edit.rename pair.exchange)

/-- The second node does not name the first, and no node is named by both. -/
structure Independent (pair : Neighbours) : Prop where
  place_notMem : pair.place ∉ pair.second.children
  disjoint : ∀ child ∈ pair.first.children, child ∉ pair.second.children

end Neighbours

-- What is stored in the cells of a draft is smaller than its size.
theorem Linked.rename_eq_self {cells : Array Cell} (h : Linked cells) (σ : NodeId → NodeId)
    (hstay : ∀ id, id < cells.size → σ id = id) {id : NodeId} {cell : Cell}
    (hcell : cells[id]? = some cell) : cell.rename σ = cell := by
  have hid : id < cells.size := (Array.getElem?_eq_some_iff.mp hcell).1
  refine cell.rename_eq_self σ (fun child hchild => hstay child ?_) fun parent hparent => ?_
  · exact Nat.lt_trans (h.child_lt id child ⟨cell, hcell, hchild⟩) hid
  · exact hstay parent (lt_size_of_names ((h.parent_eq_some_iff id cell hcell parent).mp hparent).1)

/-- Right after the two additions the drafts have the same nodes, and the numbers of the two are
    exchanged. -/
theorem renumbered_exchange (draft : Draft) (first second : Form)
    (firstModifiers secondModifiers : ModifierFlags) (hlinked : Linked draft.cells)
    (hfirst : ∀ child ∈ first.children, child < draft.size)
    (hsecond : ∀ child ∈ second.children, child < draft.size)
    (hdisjoint : ∀ child ∈ first.children, child ∉ second.children) :
    Renumbered (Equiv.swap draft.size (draft.size + 1))
      ((draft.extend first firstModifiers).extend second secondModifiers).cells
      ((draft.extend second secondModifiers).extend first firstModifiers).cells := by
  have hne : draft.size ≠ draft.size + 1 := Nat.ne_of_lt (Nat.lt_succ_self _)
  have hold : ∀ id, id < draft.size → id ≠ draft.size ∧ id ≠ draft.size + 1 := fun id hid =>
    ⟨Nat.ne_of_lt hid, Nat.ne_of_lt (Nat.lt_succ_of_lt hid)⟩
  have hstay : ∀ id, id < draft.size → Equiv.swap draft.size (draft.size + 1) id = id :=
    fun id hid => Equiv.swap_apply_of_ne_of_ne (hold id hid).1 (hold id hid).2
  have hsame : ∀ form : Form, (∀ child ∈ form.children, child < draft.size) →
      form.rename (Equiv.swap draft.size (draft.size + 1)) = form := fun form hform =>
    form.rename_eq_self _ fun child hchild => hstay child (hform child hchild)
  have hnew : ∀ form : Form, (∀ child ∈ form.children, child < draft.size) →
      draft.size ∉ form.children := fun form hform hmem => Nat.lt_irrefl _ (hform _ hmem)
  refine ⟨?_, fun id => ?_⟩
  · change Draft.size _ = Draft.size _
    simp only [Draft.size_extend]
  · simp only [Draft.getElem?_extend, Draft.size_extend]
    by_cases hfirstId : id = draft.size
    · -- The first node: it is the last of the other draft.
      subst hfirstId
      rw [Equiv.swap_apply_left, if_pos rfl, if_neg hne, if_pos rfl, Option.map_some,
        if_neg (hnew second hsecond), Option.map_some, Cell.rename, hsame first hfirst]
      rfl
    · by_cases hsecondId : id = draft.size + 1
      · -- The second node: it is the last but one of the other draft.
        subst hsecondId
        rw [Equiv.swap_apply_right, if_pos rfl, if_neg hne, if_pos rfl, Option.map_some,
          if_neg (hnew first hfirst), Option.map_some, Cell.rename, hsame second hsecond]
        rfl
      · -- A node from before: at most one of the two takes it over.
        rw [Equiv.swap_apply_of_ne_of_ne hfirstId hsecondId, if_neg hsecondId, if_neg hfirstId,
          if_neg hsecondId, if_neg hfirstId]
        cases hcell : draft.cells[id]? with
        | none => rfl
        | some cell =>
            have hrename := hlinked.rename_eq_self _ hstay hcell
            have hform : cell.form.rename (Equiv.swap draft.size (draft.size + 1)) = cell.form :=
              congrArg Cell.form hrename
            simp only [Option.map_some, Option.some.injEq]
            by_cases hinFirst : id ∈ first.children
            · rw [if_pos hinFirst, if_pos hinFirst, if_neg (hdisjoint id hinFirst),
                if_neg (hdisjoint id hinFirst)]
              simp only [Cell.rename, hform, Option.map_some, Equiv.swap_apply_left]
            · rw [if_neg hinFirst, if_neg hinFirst]
              by_cases hinSecond : id ∈ second.children
              · rw [if_pos hinSecond, if_pos hinSecond]
                simp only [Cell.rename, hform, Option.map_some, Equiv.swap_apply_right]
              · rw [if_neg hinSecond, if_neg hinSecond, hrename]

-- A range may be set before an addition or after it.
theorem cover_extend (draft : Draft) (id : NodeId) (range : Range) (form : Form)
    (modifiers : ModifierFlags) (hid : id < draft.size) :
    (draft.cover id range).extend form modifiers =
      (draft.extend form modifiers).cover id range := by
  refine congrArg Draft.mk (Array.ext_getElem? fun place => ?_)
  change ((draft.cover id range).extend form modifiers).cells[place]? =
    ((draft.extend form modifiers).cover id range).cells[place]?
  simp only [Draft.getElem?_extend, Draft.getElem?_cover, Draft.size_cover]
  by_cases hplace : place = draft.size
  · -- The new node covers nothing yet, and is not the one whose range is set.
    have hne : place ≠ id := fun h => Nat.ne_of_lt hid (h.symm.trans hplace)
    rw [if_pos hplace, if_pos hplace, Option.map_some, if_neg hne]
  · rw [if_neg hplace, if_neg hplace, Option.map_map, Option.map_map]
    refine Option.map_congr fun cell _ => ?_
    by_cases hset : place = id
    · by_cases hchild : place ∈ form.children
      · simp only [Function.comp_apply, if_pos hset, if_pos hchild]
      · simp only [Function.comp_apply, if_pos hset, if_neg hchild]
    · simp only [Function.comp_apply, if_neg hset]

-- So may several of them. The induction is on the edits, all of which set ranges.
theorem edit_extend (edits : List Edit) (draft next : Draft) (form : Form)
    (modifiers : ModifierFlags) (hnone : added edits = 0) (h : draft.edit edits = .ok next) :
    (draft.extend form modifiers).edit edits = .ok (next.extend form modifiers) := by
  induction edits generalizing draft with
  | nil =>
      rw [edit_nil, Except.ok.injEq] at h
      rw [edit_nil, h]
  | cons edit rest ih =>
      rcases (edit_cons_eq_ok_iff ..).mp h with ⟨middle, hrun, hrest⟩
      cases edit with
      | add => exact absurd hnone (Nat.succ_ne_zero _)
      | cover id range =>
          rcases (edit_cover_eq_ok_iff ..).mp hrun with ⟨hid, rfl⟩
          refine (edit_cons_eq_ok_iff ..).mpr ⟨_, (edit_cover_eq_ok_iff ..).mpr ⟨?_, rfl⟩, ?_⟩
          · rw [Draft.size_extend]
            exact Nat.lt_succ_of_lt hid
          · rw [← cover_extend draft id range form modifiers hid]
            exact ih _ hnone hrest

namespace Neighbours

variable {pair : Neighbours}

-- The numbers behind the two stay.
theorem exchange_eq_self {id : NodeId} (h : pair.place + 2 ≤ id) : pair.exchange id = id :=
  Equiv.swap_apply_of_ne_of_ne (Nat.ne_of_gt (Nat.lt_of_lt_of_le (Nat.lt_add_of_pos_right
    Nat.two_pos) h)) (Nat.ne_of_gt h)

-- What the given edits do: both nodes are added to a draft that has the children of both, and
-- then comes the rest. What was set between the two additions is set after them.
theorem exists_before (hindependent : pair.Independent) {next : Draft}
    (hedit : ({} : Draft).edit pair.edits = .ok next) :
    ∃ draft : Draft, ({} : Draft).edit pair.before = .ok draft ∧ draft.size = pair.place ∧
      (∀ child ∈ pair.first.children, child < draft.size) ∧
      (∀ child ∈ pair.second.children, child < draft.size) ∧
      ((draft.extend pair.first pair.firstModifiers).extend pair.second
        pair.secondModifiers).edit (pair.between ++ pair.after) = .ok next := by
  rw [edits, edit_append, bind_eq_ok_iff] at hedit
  rcases hedit with ⟨draft, hbefore, hrest⟩
  rcases (edit_cons_eq_ok_iff ..).mp hrest with ⟨middle, hrun, hrest⟩
  rcases (edit_add_eq_ok_iff ..).mp hrun with ⟨hfirst, rfl⟩
  rw [edit_append, bind_eq_ok_iff] at hrest
  rcases hrest with ⟨reached, hbetween, hrest⟩
  rcases (edit_cons_eq_ok_iff ..).mp hrest with ⟨both, hrun, hafter⟩
  rcases (edit_add_eq_ok_iff ..).mp hrun with ⟨hsecond, rfl⟩
  have hplace : draft.size = pair.place := by
    rw [size_of_edit _ _ _ hbefore]
    exact Nat.zero_add _
  have hreached : reached.size = draft.size + 1 := by
    rw [size_of_edit _ _ _ hbetween, pair.added_between, Draft.size_extend]
  refine ⟨draft, hbefore, hplace, hfirst, fun child hchild => ?_, ?_⟩
  · -- The second node does not name the first, so its children were there before.
    have hlt := hsecond child hchild
    rw [hreached] at hlt
    refine Nat.lt_of_le_of_ne (Nat.le_of_lt_succ hlt) fun heq => ?_
    rw [heq, hplace] at hchild
    exact hindependent.place_notMem hchild
  · rw [edit_append, bind_eq_ok_iff]
    exact ⟨_, edit_extend _ _ _ _ _ pair.added_between hbetween, hafter⟩

/-- The exchanged edits succeed if the given ones do, and lead to the same nodes under exchanged
    numbers. -/
theorem exists_exchanged_edit (hindependent : pair.Independent) {next : Draft}
    (hedit : ({} : Draft).edit pair.edits = .ok next) :
    ∃ last, ({} : Draft).edit pair.exchanged = .ok last ∧
      Renumbered pair.exchange next.cells last.cells ∧ pair.place + 2 ≤ next.size := by
  rcases exists_before hindependent hedit with
    ⟨draft, hbefore, hplace, hfirst, hsecond, hlater⟩
  have hlinked : Linked draft.cells :=
    edit_induction (fun draft => Linked draft.cells) linked_extend
      (fun draft id range _ => linked_cover draft id range) _ _ _ hbefore linked_empty
  have hboth := renumbered_exchange draft pair.first pair.second pair.firstModifiers
    pair.secondModifiers hlinked hfirst hsecond hindependent.disjoint
  rw [hplace] at hboth
  have hsize : ((draft.extend pair.first pair.firstModifiers).extend pair.second
      pair.secondModifiers).size = pair.place + 2 := by
    rw [Draft.size_extend, Draft.size_extend, hplace]
  have hstay : ∀ id, _ ≤ id → pair.exchange id = id := fun id hid =>
    exchange_eq_self (Nat.le_trans (Nat.le_of_eq hsize.symm) hid)
  rcases exists_renumbered_edit _ _ _ next hstay hboth hlater with ⟨last, hlast, hsame⟩
  refine ⟨last, ?_, hsame, ?_⟩
  · rw [exchanged, edit_append, bind_eq_ok_iff]
    refine ⟨draft, hbefore, (edit_cons_eq_ok_iff ..).mpr
      ⟨_, (edit_add_eq_ok_iff ..).mpr ⟨hsecond, rfl⟩, (edit_cons_eq_ok_iff ..).mpr
        ⟨_, (edit_add_eq_ok_iff ..).mpr ⟨fun child hchild => ?_, rfl⟩, hlast⟩⟩⟩
    rw [Draft.size_extend]
    exact Nat.lt_succ_of_lt (hfirst child hchild)
  · rw [size_of_edit _ _ _ hlater, hsize]
    exact Nat.le_add_right ..

/-- A recipe with two independent additions can be carried out in the other order, and the program
    be finished with the two numbers exchanged. The file has the same nodes. -/
theorem exists_exchanged_file (hindependent : pair.Independent) {steps : List Step}
    (hsteps : recipeEdits 0 steps = pair.edits) {draft : Draft}
    (hrun : (({} : Draft).run steps).outcome = .ok draft) {name : String}
    {statements : List NodeId} {file : SourceFile}
    (hfinish : draft.finish name statements = .ok file) :
    ∃ last result, (({} : Draft).run (pair.exchanged.map Edit.step)).outcome = .ok last ∧
      last.finish name (statements.map pair.exchange) = .ok result ∧
      Isomorphic pair.exchange file result := by
  have hedit : ({} : Draft).edit pair.edits = .ok draft := by
    rw [← hsteps, ← hrun, run_eq_edit]
    rfl
  rcases exists_exchanged_edit hindependent hedit with ⟨last, hlast, hsame, hsize⟩
  rcases (finish_eq_ok_iff ..).mp hfinish with ⟨hstatements, rfl⟩
  have hstay : pair.exchange draft.size = draft.size := exchange_eq_self hsize
  refine ⟨last, _, ?_, (finish_eq_ok_iff ..).mpr ⟨?_, rfl⟩, rfl, ?_, ?_⟩
  · rw [run_eq_edit, recipeEdits_map_step, hlast]
  · exact List.forall_mem_map.mpr fun id hid => (hsame.lt_size_iff id).mpr (hstatements id hid)
  · rw [hstay]
    exact hsame.size_eq
  · exact renumbered_extend (.sourceFile statements) .none hstay hsame

end Neighbours

end TreeQuery
