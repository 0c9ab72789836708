import TreeQuery.Proofs.Tree.Content
import TreeQuery.Proofs.Tree.UsedOnce

/-!
# What a call adds, and whom it names

A call of a builder adds a few nodes in one go, numbered on from the nodes that were there
before. Whom these nodes name is of two kinds: nodes of the same call, and nodes that the
caller hands over. The second are the references of the call, and they can be read off its
arguments.

So a node that is there is named later only by calls that refer to it. What names it after
any number of other calls is what named it before, and its parent stays the same.

## Main definitions

* `Step.references`: The numbers that a caller hands over.
* `HandsBack`: A call of a recipe, by its place and its result.

## Theorems

* `le_or_mem_references`: A call names its own nodes and its references.
* `names_finish_of_not_referenced`: Who names a node that no later call refers to.
* `exists_drafts_of_step`: A recipe, taken apart at a call.
* `HandsBack.exists_drafts`: A call of a recipe, with the drafts before and after it.
* `HandsBack.exists_node`: What a call adds is in the file.
* `exists_between`, `run_after_step`: Two calls of a recipe.
* `HandsBack.le_of_reference`: Calls refer to what was handed back before.
* `exists_call_of_addition`: Every node is added by one of the calls.
* `HandsBack.addition_eq`: What a call for a single node adds, among all that is added.
-/

namespace TreeQuery

/-- The numbers that a caller hands to a builder as children of what it adds. -/
def Step.references : Step → List NodeId
  | node form _ => form.children
  | call callee arguments => callee :: arguments
  | propertyAccess object _ => [object]
  | binary left _ right => [left, right]
  | expressionStatement expression => [expression]
  | block statements | functionDeclaration _ statements => statements
  | classDeclaration _ heritage => heritage
  | variableStatement name initialValue => name :: initialValue.toList
  | range .. | identifier _ | numericLiteral _ | stringLiteral _ | heritageClause ..
  | arrayBindingPattern _ => []

/-- The recipe has the call at the place, and the call hands back the node. -/
structure HandsBack (steps : List Step) (place : Nat) (step : Step) (id : NodeId) : Prop where
  step_eq : steps[place]? = some step
  placed_eq : (({} : Draft).run steps).placed[place]? = some (.node id)

-- Names that are wrapped one by one stand in the slots of their wrappers, which have every
-- second number.
theorem mem_slots_wrappedEdits {wrap : NodeId → Form} (hwrap : ∀ id, (wrap id).children = [id])
    {size : Nat} {names : List String} {child : Nat}
    (h : child ∈ slots (wrappedEdits wrap size names)) : ∃ place, child = size + 2 * place := by
  induction names generalizing size with
  | nil => exact absurd h List.not_mem_nil
  | cons name rest ih =>
      rw [wrappedEdits, slots, slots, hwrap] at h
      rcases List.mem_cons.mp h with rfl | h
      · exact ⟨0, rfl⟩
      · rcases ih h with ⟨place, rfl⟩
        exact ⟨place + 1, by omega⟩

theorem mem_slots_around {wrap : NodeId → Form} (hwrap : ∀ id, (wrap id).children = [id])
    {around : Form} {size : Nat} {names : List String}
    (haround : around.children = wrappers size names.length) {child : NodeId}
    (h : child ∈ slots (wrappedEdits wrap size names ++ [.add around .none])) : size ≤ child := by
  rw [slots_append, slots, slots, List.append_nil, haround, List.mem_append] at h
  rcases h with h | h
  · rcases mem_slots_wrappedEdits hwrap h with ⟨place, rfl⟩
    exact Nat.le_add_right ..
  · rcases List.mem_map.mp h with ⟨place, _, rfl⟩
    omega

/-- A call names nodes that it has added itself, and those that the caller handed over. -/
theorem le_or_mem_references (step : Step) (size : Nat) {child : NodeId}
    (h : child ∈ slots (step.edits size)) : size ≤ child ∨ child ∈ step.references := by
  cases step with
  | heritageClause keyword names =>
      exact Or.inl (mem_slots_around (fun _ => rfl) rfl h)
  | arrayBindingPattern names =>
      exact Or.inl (mem_slots_around (fun _ => rfl) rfl h)
  | _ =>
      simp only [Step.edits, slots, Form.children, Step.references, List.mem_append, List.mem_cons,
        List.not_mem_nil, or_false, Option.mem_toList, Option.some.injEq] at h ⊢ <;> grind

theorem mem_slots_recipeEdits (steps : List Step) (size : Nat) {child : NodeId}
    (h : child ∈ slots (recipeEdits size steps)) :
    size ≤ child ∨ ∃ step ∈ steps, child ∈ step.references := by
  induction steps generalizing size with
  | nil => exact absurd h List.not_mem_nil
  | cons step rest ih =>
      rw [recipeEdits, slots_append, List.mem_append] at h
      rcases h with h | h
      · refine (le_or_mem_references step size h).imp_right fun hstep => ?_
        exact ⟨step, List.mem_cons_self, hstep⟩
      · rcases ih _ h with hle | ⟨later, hlater, hreference⟩
        · exact Or.inl (Nat.le_trans (Nat.le_add_right ..) hle)
        · exact Or.inr ⟨later, List.mem_cons_of_mem step hlater, hreference⟩

-- A node that stands in no slot of some edits is named after them as it was before.
theorem names_edit_of_not_mem_slots (edits : List Edit) (draft next : Draft)
    (h : draft.edit edits = .ok next) {child : NodeId} (hnot : child ∉ slots edits)
    (parent : NodeId) : Names next.cells parent child ↔ Names draft.cells parent child := by
  induction edits generalizing draft with
  | nil =>
      rw [edit_nil, Except.ok.injEq] at h
      rw [h]
  | cons edit rest ih =>
      rcases (edit_cons_eq_ok_iff ..).mp h with ⟨middle, hrun, hrest⟩
      cases edit with
      | add form modifiers =>
          rw [slots, List.mem_append, not_or] at hnot
          rcases (edit_add_eq_ok_iff ..).mp hrun with ⟨_, rfl⟩
          rw [ih _ hrest hnot.2, names_extend]
          exact or_iff_left fun hnew => hnot.1 hnew.2
      | cover id range =>
          rcases (edit_cover_eq_ok_iff ..).mp hrun with ⟨_, rfl⟩
          rw [ih _ hrest hnot, names_cover]

/-- A node that is there is named after some calls as it was before, if none of the calls refers to
    it. -/
theorem names_run_of_not_referenced (steps : List Step) (draft next : Draft)
    (h : (draft.run steps).outcome = .ok next) {child : NodeId} (hthere : child < draft.size)
    (hnot : ∀ step ∈ steps, child ∉ step.references) (parent : NodeId) :
    Names next.cells parent child ↔ Names draft.cells parent child := by
  rw [run_eq_edit] at h
  refine names_edit_of_not_mem_slots _ draft next h (fun hslot => ?_) parent
  rcases mem_slots_recipeEdits steps draft.size hslot with hle | ⟨step, hstep, hreference⟩
  · exact Nat.not_lt_of_ge hle hthere
  · exact hnot step hstep hreference

-- The program is one more node that may name it.
theorem names_finish_of_not_referenced (steps : List Step) (draft last : Draft) (name : String)
    (statements : List NodeId) (file : SourceFile) (h : (draft.run steps).outcome = .ok last)
    (hfinish : last.finish name statements = .ok file) {child : NodeId}
    (hthere : child < draft.size) (hnot : ∀ step ∈ steps, child ∉ step.references)
    (hstatement : child ∉ statements) (parent : NodeId) :
    Names file.cells parent child ↔ Names draft.cells parent child := by
  rcases (finish_eq_ok_iff ..).mp hfinish with ⟨_, rfl⟩
  rw [← names_run_of_not_referenced steps draft last h hthere hnot, names_extend]
  exact or_iff_left fun hnew => hstatement hnew.2

/-- A recipe that can be carried out, taken apart at one of its calls. -/
theorem exists_drafts_of_step {steps : List Step} {draft last : Draft} {place : Nat} {step : Step}
    (hrun : (draft.run steps).outcome = .ok last) (hstep : steps[place]? = some step) :
    ∃ before after reached next, steps = before ++ step :: after ∧ before.length = place ∧
      (draft.run before).outcome = .ok reached ∧
      reached.edit (step.edits reached.size) = .ok next ∧ (next.run after).outcome = .ok last ∧
      (draft.run steps).placed[place]? = some (step.result reached.size) := by
  induction place generalizing steps draft with
  | zero =>
      cases steps with
      | nil => exact absurd hstep (by simp)
      | cons first rest =>
          cases hstep
          rcases exists_edit_of_run_cons hrun with ⟨next, hedit, hrest⟩
          refine ⟨[], rest, draft, next, rfl, rfl, rfl, hedit, hrest, ?_⟩
          rw [run_cons_of_edit rest hedit]
          rfl
  | succ place ih =>
      cases steps with
      | nil => exact absurd hstep (by simp)
      | cons first rest =>
          rcases exists_edit_of_run_cons hrun with ⟨middle, hedit, hrest⟩
          rcases ih hrest hstep with
            ⟨before, after, reached, next, rfl, rfl, hbefore, hnext, hafter, hplaced⟩
          refine ⟨first :: before, after, reached, next, rfl, rfl, ?_, hnext, hafter, ?_⟩
          · rw [run_cons_of_edit before hedit]
            exact hbefore
          · rw [run_cons_of_edit _ hedit]
            exact hplaced

/-- A call that hands back a node, with the drafts before and after it. -/
theorem HandsBack.exists_drafts {steps : List Step} {place : Nat} {step : Step} {id : NodeId}
    {last : Draft} (h : HandsBack steps place step id)
    (hrun : (({} : Draft).run steps).outcome = .ok last) :
    ∃ before after reached next, steps = before ++ step :: after ∧ before.length = place ∧
      (({} : Draft).run before).outcome = .ok reached ∧
      reached.edit (step.edits reached.size) = .ok next ∧ (next.run after).outcome = .ok last ∧
      step.result reached.size = .node id := by
  rcases exists_drafts_of_step hrun h.step_eq with
    ⟨before, after, reached, next, hsteps, hplace, hbefore, hnext, hafter, hplaced⟩
  refine ⟨before, after, reached, next, hsteps, hplace, hbefore, hnext, hafter, ?_⟩
  rw [h.placed_eq, Option.some.injEq] at hplaced
  exact hplaced.symm

-- The node with a certain place among the additions of some edits.
theorem Records.exists_cell {edits further : List Edit} {draft next : Draft}
    (h : Records edits draft.cells) (hedit : draft.edit further = .ok next) {place : Nat}
    {form : Form} {modifiers : ModifierFlags}
    (hplace : (additions further)[place]? = some (form, modifiers)) :
    ∃ cell, next.cells[draft.size + place]? = some cell ∧ cell.form = form := by
  have hnext := records_of_edit further edits draft next hedit h
  have hsize : draft.size = (additions edits).length := h.size_eq
  have hlt : draft.size + place < next.cells.size := by
    rw [hnext.size_eq, additions_append, List.length_append, ← hsize]
    exact Nat.add_lt_add_left (List.getElem?_eq_some_iff.mp hplace).1 _
  have hthere : ∃ cell, next.cells[draft.size + place]? = some cell :=
    ⟨_, Array.getElem?_eq_getElem hlt⟩
  rcases hthere with ⟨cell, hcell⟩
  have hentry := hnext.addition_eq _ cell hcell
  rw [additions_append, hsize, List.getElem?_append_right (Nat.le_add_right ..),
    Nat.add_sub_cancel_left, hplace, Option.some.injEq, Prod.mk.injEq] at hentry
  exact ⟨cell, hcell, hentry.1.symm⟩

/-- The nodes that a call adds are in the finished file, from the number on that the draft had
    nodes before the call. -/
theorem HandsBack.exists_node {steps : List Step} {place : Nat} {step : Step} {id : NodeId}
    {draft : Draft} {name : String} {statements : List NodeId} {file : SourceFile}
    (h : HandsBack steps place step id) (hrun : (({} : Draft).run steps).outcome = .ok draft)
    (hfinish : draft.finish name statements = .ok file) :
    ∃ size, step.result size = .node id ∧ ∀ place form modifiers,
      (additions (step.edits size))[place]? = some (form, modifiers) →
        ∃ node, file.node (size + place) = .ok node ∧ node.form = form := by
  rcases h.exists_drafts hrun with
    ⟨before, after, reached, next, rfl, _, hbefore, hnext, hafter, hresult⟩
  refine ⟨reached.size, hresult, fun place form modifiers hplace => ?_⟩
  rcases (records_of_run before reached hbefore).exists_cell hnext hplace with ⟨cell, hcell, rfl⟩
  exact (keeps_finish _ after next draft name statements file (run_concat hbefore hnext) hafter
    hfinish).exists_node hcell

theorem size_le_of_run {steps : List Step} {draft next : Draft}
    (h : (draft.run steps).outcome = .ok next) : draft.size ≤ next.size := by
  rw [run_eq_edit] at h
  rw [size_of_edit _ draft next h]
  exact Nat.le_add_right ..

theorem exists_place_before {before : List Step} {other : Step} (h : other ∈ before)
    (rest : List Step) :
    ∃ place, place < before.length ∧ (before ++ rest)[place]? = some other := by
  rcases List.getElem?_of_mem h with ⟨place, hplace⟩
  have hlt := (List.getElem?_eq_some_iff.mp hplace).1
  exact ⟨place, hlt, (List.getElem?_append_left hlt).trans hplace⟩

theorem exists_place_after {after : List Step} {other : Step} (h : other ∈ after)
    (before : List Step) (step : Step) :
    ∃ place, before.length < place ∧ (before ++ step :: after)[place]? = some other := by
  rcases List.getElem?_of_mem h with ⟨place, hplace⟩
  refine ⟨before.length + (place + 1), Nat.lt_add_of_pos_right (Nat.succ_pos _), ?_⟩
  rw [List.getElem?_append_right (Nat.le_add_right ..), Nat.add_sub_cancel_left,
    List.getElem?_cons_succ, hplace]

-- Of two calls one comes before the other, and there may be calls in between.
theorem exists_between {before after first last : List Step} {step other : Step}
    (h : before ++ step :: after = first ++ other :: last) (hlt : before.length < first.length) :
    ∃ between, first = before ++ step :: between ∧ after = between ++ other :: last := by
  rcases List.append_eq_append_iff.mp h with ⟨rest, rfl, hrest⟩ | ⟨rest, rfl, hrest⟩
  · cases rest with
    | nil =>
        rw [List.append_nil] at hlt
        exact absurd hlt (Nat.lt_irrefl _)
    | cons head between =>
        rw [List.cons_append, List.cons.injEq] at hrest
        exact ⟨between, by rw [hrest.1], hrest.2⟩
  · rw [List.length_append] at hlt
    exact absurd hlt (Nat.not_lt_of_ge (Nat.le_add_right ..))

-- What comes after a call starts from the draft that the call has left.
theorem run_after_step {before after : List Step} {step : Step} {draft reached next last : Draft}
    (hbefore : (draft.run before).outcome = .ok reached)
    (hnext : reached.edit (step.edits reached.size) = .ok next)
    (h : (draft.run (before ++ step :: after)).outcome = .ok last) :
    (next.run after).outcome = .ok last := by
  rcases (run_append_eq_ok_iff ..).mp h with ⟨middle, hmiddle, hrest⟩
  rw [hbefore, Except.ok.injEq] at hmiddle
  subst hmiddle
  rwa [run_cons_of_edit after hnext] at hrest

theorem mem_slots_of_mem_references (step : Step) (size : Nat) {child : NodeId}
    (h : child ∈ step.references) : child ∈ slots (step.edits size) := by
  cases step with
  | node form modifiers => exact List.mem_append_left _ h
  | propertyAccess object name => exact List.mem_singleton.mp h ▸ List.mem_cons_self
  | _ =>
      simp only [Step.references, List.not_mem_nil] at h <;>
        simp only [Step.edits, slots, Form.children, List.mem_append, List.append_nil,
          List.nil_append, h, or_true, true_or]

-- What stands in a slot is there when the slot is filled.
theorem lt_of_mem_slots {edits : List Edit} {draft next : Draft} (h : draft.edit edits = .ok next)
    {child : NodeId} (hslot : child ∈ slots edits) : child < next.size := by
  induction edits generalizing draft with
  | nil => exact absurd hslot List.not_mem_nil
  | cons edit rest ih =>
      rcases (edit_cons_eq_ok_iff ..).mp h with ⟨middle, hrun, hrest⟩
      cases edit with
      | add form modifiers =>
          rcases (edit_add_eq_ok_iff ..).mp hrun with ⟨hthere, rfl⟩
          rcases List.mem_append.mp hslot with hchild | hlater
          · rw [size_of_edit _ _ next hrest, Draft.size_extend, Nat.add_right_comm]
            exact Nat.lt_succ_of_lt (Nat.lt_add_right _ (hthere child hchild))
          · exact ih hrest hlater
      | cover id range => exact ih hrest hslot

/-- A call does not refer to what a later call hands back. -/
theorem HandsBack.le_of_reference {steps : List Step} {place later : Nat} {step other : Step}
    {id : NodeId} {last : Draft} (h : HandsBack steps place step id)
    (hother : steps[later]? = some other) (hreference : id ∈ other.references)
    (hrun : (({} : Draft).run steps).outcome = .ok last) : place ≤ later := by
  rcases h.exists_drafts hrun with
    ⟨before, after, reached, next, hsteps, rfl, hbefore, _, _, hresult⟩
  rcases exists_drafts_of_step hrun hother with
    ⟨first, rest, middle, following, hsplit, rfl, hfirst, hfollowing, _, _⟩
  refine Nat.le_of_not_lt fun hlt => ?_
  rcases exists_between (hsplit.symm.trans hsteps) hlt with ⟨between, hbetween, _⟩
  rw [hbetween] at hbefore
  -- The node is there when it is referred to, so it is no node of a call behind that.
  have hthere := lt_of_mem_slots hfollowing (mem_slots_of_mem_references other _ hreference)
  have hsize := size_le_of_run (run_after_step hfirst hfollowing hbefore)
  have hnew := (ids_result step reached.size id (by rw [hresult]; exact List.mem_cons_self)).1
  exact Nat.lt_irrefl _ (Nat.lt_of_lt_of_le hthere (Nat.le_trans hsize hnew))

/-- What a recipe adds is added by one of its calls. The offset is the place of the node among those
    that the call adds. -/
theorem exists_call_of_addition {steps : List Step} {draft last : Draft} {place : Nat}
    {entry : Form × ModifierFlags} (hrun : (draft.run steps).outcome = .ok last)
    (hentry : (additions (recipeEdits draft.size steps))[place]? = some entry) :
    ∃ (index : Nat) (step : Step) (size offset : Nat), steps[index]? = some step ∧
      (draft.run steps).placed[index]? = some (step.result size) ∧
      draft.size + place = size + offset ∧
      (additions (step.edits size))[offset]? = some entry := by
  induction steps generalizing draft place with
  | nil => exact absurd hentry (by simp [recipeEdits, additions])
  | cons step rest ih =>
      rcases exists_edit_of_run_cons hrun with ⟨next, hedit, hrest⟩
      rw [run_cons_of_edit rest hedit]
      rw [recipeEdits, additions_append] at hentry
      by_cases hplace : place < (additions (step.edits draft.size)).length
      · rw [List.getElem?_append_left hplace] at hentry
        exact ⟨0, step, draft.size, place, rfl, rfl, rfl, hentry⟩
      · -- The calls behind the first one start from the nodes that it leaves.
        have hsize := size_of_edit _ draft next hedit
        have hle := Nat.le_of_not_lt hplace
        rw [List.getElem?_append_right hle, ← hsize] at hentry
        rcases ih hrest hentry with ⟨index, later, size, offset, hlater, hplaced, hoffset, hadds⟩
        refine ⟨index + 1, later, size, offset, hlater, hplaced, ?_, hadds⟩
        rw [length_additions] at hle hoffset
        rw [← hoffset, hsize, Nat.add_assoc, Nat.add_sub_cancel' hle]

/-- A call for a single node adds it under the number that it hands back. -/
theorem HandsBack.addition_eq {steps : List Step} {place : Nat} {form : Form}
    {modifiers : ModifierFlags} {id : NodeId} {last : Draft}
    (h : HandsBack steps place (.node form modifiers) id)
    (hrun : (({} : Draft).run steps).outcome = .ok last) :
    (additions (recipeEdits 0 steps))[id]? = some (form, modifiers) := by
  rcases h.exists_drafts hrun with ⟨before, after, reached, next, _, _, hbefore, hnext, hafter, hid⟩
  have hreached := records_of_run before reached hbefore
  have hsize : id = (additions (recipeEdits 0 before)).length :=
    (Placed.node.inj hid).symm.trans hreached.size_eq
  rw [run_eq_edit] at hafter
  have hnext := records_of_edit _ _ reached next hnext hreached
  have hlast := records_of_edit _ _ next last hafter hnext
  have hadds : (additions (recipeEdits 0 before ++ Step.edits reached.size (.node form modifiers) ++
      recipeEdits next.size after))[id]? = some (form, modifiers) := by
    rw [additions_append, additions_append, List.append_assoc, hsize,
      List.getElem?_append_right (Nat.le_refl _), Nat.sub_self]
    rfl
  -- Both ways of telling the cells tell the same cell under the number.
  have hthere : id < last.cells.size := by
    rw [hlast.size_eq]
    exact (List.getElem?_eq_some_iff.mp hadds).1
  have hcell := Array.getElem?_eq_getElem hthere
  have hrecords := records_of_run steps last hrun
  rw [hrecords.addition_eq id _ hcell, ← hlast.addition_eq id _ hcell, hadds]

end TreeQuery
