import TreeQuery.Proofs.Outcome
import TreeQuery.Tree.File

/-!
# Single edits of a draft

There are two things that change a draft: a node is added, or the part of the text
that a node covers is set. Everything else that a builder does is made of these
two, so they are given here as data, and what each does to the cells is said once.

An edit changes little. An addition puts one cell at the end and rewrites the
link to the parent in the cells of the children, and in no others. It keeps the
forms of all cells, which is why a child list that was written once can be relied
on for ever. Setting a range touches the range of one cell.

## Main definitions

* `Edit`: A single change of a draft.
* `Draft.extend`, `Draft.cover`: The drafts that the two edits lead to.
* `Draft.edit`: Carry out edits from left to right.
* `added`: How many nodes a list of edits adds.

## Theorems

* `getElem?_extend`, `getElem?_cover`: The cells after an edit.
* `edit_add_eq_ok_iff`, `edit_cover_eq_ok_iff`: When an edit succeeds, and where
  it leads.
* `size_of_edit`: The size of a draft after edits.
* `edit_induction`: What the two edits keep is kept by any number of them.
* `finish_eq`, `finish_eq_ok_iff`: Finishing a draft is one more addition.
-/

namespace TreeQuery

/-- A single change of a draft. -/
inductive Edit where
  /-- A node is added and becomes the parent of its children. -/
  | add (form : Form) (modifiers : ModifierFlags)
  /-- The part of the text that a node covers is set. -/
  | cover (id : NodeId) (range : Range)

/-- Carry out one edit. -/
def Edit.run (draft : Draft) : Edit → Except MissingNode Draft
  | .add form modifiers => (·.2) <$> Build.pushWith form modifiers draft
  | .cover id range => (·.2) <$> Build.setRange id range draft

/-- How many nodes a list of edits adds. -/
def added : List Edit → Nat
  | [] => 0
  | .add .. :: rest => added rest + 1
  | .cover .. :: rest => added rest

namespace Draft

/-- Carry out edits from left to right, up to the first that fails. -/
def edit (draft : Draft) (edits : List Edit) : Except MissingNode Draft :=
  edits.foldlM Edit.run draft

/-- The draft with one more node, which has become the parent of its children. -/
def extend (draft : Draft) (form : Form) (modifiers : ModifierFlags) : Draft :=
  ⟨(adopt draft.size form.children draft.cells).push ⟨form, modifiers, none, {}⟩⟩

/-- The draft in which a node covers another part of the text. -/
def cover (draft : Draft) (id : NodeId) (range : Range) : Draft :=
  ⟨draft.cells.modify id fun cell => { cell with range := range }⟩

-- Adoption rewrites the link to the parent in the cells of the children. The induction is
-- on the children, from left to right as they are adopted.
theorem getElem?_adopt (parent : NodeId) (children : List NodeId) (cells : Array Cell) (i : Nat) :
    (adopt parent children cells)[i]? = cells[i]?.map fun cell =>
      if i ∈ children then { cell with parent := some parent } else cell := by
  induction children generalizing cells with
  | nil => simp [adopt]
  | cons child rest ih =>
      have hrest : adopt parent (child :: rest) cells = adopt parent rest
          (cells.modify child fun cell => { cell with parent := some parent }) := rfl
      rw [hrest, ih, Array.getElem?_modify]
      by_cases hi : child = i
      · -- The child may be named again in the rest; adopting it twice changes nothing.
        rw [if_pos hi]
        cases cells[i]? <;> simp [hi]
      · rw [if_neg hi]
        simp only [List.mem_cons, Ne.symm hi, false_or]

theorem size_adopt (parent : NodeId) (children : List NodeId) (cells : Array Cell) :
    (adopt parent children cells).size = cells.size := by
  induction children generalizing cells with
  | nil => rfl
  | cons child rest ih =>
      have hrest : adopt parent (child :: rest) cells = adopt parent rest
          (cells.modify child fun cell => { cell with parent := some parent }) := rfl
      rw [hrest, ih, Array.size_modify]

@[simp] theorem size_extend (draft : Draft) (form : Form) (modifiers : ModifierFlags) :
    (draft.extend form modifiers).size = draft.size + 1 := by
  simp only [extend, size, Array.size_push, size_adopt]

@[simp] theorem size_cover (draft : Draft) (id : NodeId) (range : Range) :
    (draft.cover id range).size = draft.size := by
  simp only [cover, size, Array.size_modify]

/-- After an addition the last cell is the new one, and the cells of its children have a new link
    to their parent. -/
theorem getElem?_extend (draft : Draft) (form : Form) (modifiers : ModifierFlags) (i : Nat) :
    (draft.extend form modifiers).cells[i]? =
      if i = draft.size then some ⟨form, modifiers, none, {}⟩
      else draft.cells[i]?.map fun cell =>
        if i ∈ form.children then { cell with parent := some draft.size } else cell := by
  rw [extend, Array.getElem?_push, size_adopt, getElem?_adopt]
  rfl

theorem getElem?_cover (draft : Draft) (id : NodeId) (range : Range) (i : Nat) :
    (draft.cover id range).cells[i]? = draft.cells[i]?.map fun cell =>
      if i = id then { cell with range := range } else cell := by
  rw [cover, Array.getElem?_modify]
  by_cases hi : id = i
  · rw [if_pos hi]
    simp only [hi, if_true]
  · rw [if_neg hi]
    simp only [Ne.symm hi, if_false, Option.map_id']

-- An addition keeps all forms and puts one at the end.
theorem form_extend (draft : Draft) (form : Form) (modifiers : ModifierFlags) (i : Nat) :
    (draft.extend form modifiers).cells[i]?.map Cell.form =
      if i = draft.size then some form else draft.cells[i]?.map Cell.form := by
  rw [getElem?_extend]
  by_cases hi : i = draft.size
  · rw [if_pos hi, if_pos hi]
    rfl
  · rw [if_neg hi, if_neg hi, Option.map_map]
    refine congrFun (congrArg Option.map ?_) _
    funext cell
    by_cases hadopted : i ∈ form.children
    · simp only [Function.comp_apply, if_pos hadopted]
    · simp only [Function.comp_apply, if_neg hadopted]

theorem form_cover (draft : Draft) (id : NodeId) (range : Range) (i : Nat) :
    (draft.cover id range).cells[i]?.map Cell.form = draft.cells[i]?.map Cell.form := by
  rw [getElem?_cover, Option.map_map]
  refine congrFun (congrArg Option.map ?_) _
  funext cell
  by_cases hi : i = id
  · simp only [Function.comp_apply, if_pos hi]
  · simp only [Function.comp_apply, if_neg hi]

end Draft

/-- An addition succeeds exactly if all children are there. -/
theorem edit_add_eq_ok_iff (draft next : Draft) (form : Form) (modifiers : ModifierFlags) :
    (Edit.add form modifiers).run draft = .ok next ↔
      (∀ child ∈ form.children, child < draft.size) ∧ next = draft.extend form modifiers := by
  have hall : (form.children.find? fun child => decide (draft.size ≤ child)) = none ↔
      ∀ child ∈ form.children, child < draft.size := by
    simp only [List.find?_eq_none, decide_eq_true_eq, Nat.not_le]
  rw [← hall, Edit.run, Build.pushWith]
  cases form.children.find? fun child => decide (draft.size ≤ child) with
  | none => simp [Functor.map, Except.map, Draft.extend, eq_comm]
  | some child => simp [Functor.map, Except.map]

theorem edit_cover_eq_ok_iff (draft next : Draft) (id : NodeId) (range : Range) :
    (Edit.cover id range).run draft = .ok next ↔
      id < draft.size ∧ next = draft.cover id range := by
  rw [Edit.run, Build.setRange]
  by_cases hid : id < draft.size
  · simp [hid, Functor.map, Except.map, Draft.cover, eq_comm]
  · simp [hid, Functor.map, Except.map]

-- An addition answers with the number of nodes before it.
theorem pushWith_eq (draft : Draft) (form : Form) (modifiers : ModifierFlags) :
    Build.pushWith form modifiers draft =
      (fun next => (draft.size, next)) <$> (Edit.add form modifiers).run draft := by
  rw [Edit.run, Build.pushWith]
  cases form.children.find? fun child => decide (draft.size ≤ child) with
  | none => rfl
  | some child => rfl

theorem setRange_eq (draft : Draft) (id : NodeId) (range : Range) :
    Build.setRange id range draft =
      (fun next => ((), next)) <$> (Edit.cover id range).run draft := by
  rw [Edit.run, Build.setRange]
  by_cases hid : id < draft.size
  · rw [if_pos hid]
    rfl
  · rw [if_neg hid]
    rfl

theorem edit_nil (draft : Draft) : draft.edit [] = .ok draft := rfl

theorem edit_cons_eq_ok_iff (draft next : Draft) (edit : Edit) (rest : List Edit) :
    draft.edit (edit :: rest) = .ok next ↔
      ∃ middle, edit.run draft = .ok middle ∧ middle.edit rest = .ok next := by
  rw [Draft.edit, List.foldlM_cons, bind_eq_ok_iff]
  rfl

theorem edit_append (draft : Draft) (first second : List Edit) :
    draft.edit (first ++ second) = draft.edit first >>= fun middle => middle.edit second :=
  List.foldlM_append

/-- What the two edits keep is kept by any number of them. -/
theorem edit_induction (P : Draft → Prop)
    (hadd : ∀ draft form modifiers, (∀ child ∈ form.children, child < draft.size) →
      P draft → P (draft.extend form modifiers))
    (hcover : ∀ draft id range, id < draft.size → P draft → P (draft.cover id range))
    (edits : List Edit) (draft next : Draft) (h : draft.edit edits = .ok next) (hP : P draft) :
    P next := by
  induction edits generalizing draft with
  | nil =>
      rw [edit_nil, Except.ok.injEq] at h
      rwa [← h]
  | cons edit rest ih =>
      rcases (edit_cons_eq_ok_iff ..).mp h with ⟨middle, hrun, hrest⟩
      refine ih middle hrest ?_
      cases edit with
      | add form modifiers =>
          rcases (edit_add_eq_ok_iff ..).mp hrun with ⟨hchildren, rfl⟩
          exact hadd draft form modifiers hchildren hP
      | cover id range =>
          rcases (edit_cover_eq_ok_iff ..).mp hrun with ⟨hid, rfl⟩
          exact hcover draft id range hid hP

-- Edits add as many nodes as there are additions among them.
theorem size_of_edit (edits : List Edit) (draft next : Draft) (h : draft.edit edits = .ok next) :
    next.size = draft.size + added edits := by
  induction edits generalizing draft with
  | nil =>
      rw [edit_nil, Except.ok.injEq] at h
      rw [← h, added, Nat.add_zero]
  | cons edit rest ih =>
      rcases (edit_cons_eq_ok_iff ..).mp h with ⟨middle, hrun, hrest⟩
      rw [ih middle hrest]
      cases edit with
      | add form modifiers =>
          rw [((edit_add_eq_ok_iff ..).mp hrun).2, Draft.size_extend, added]
          omega
      | cover id range =>
          rw [((edit_cover_eq_ok_iff ..).mp hrun).2, Draft.size_cover, added]

/-- Finishing a draft adds one more node, which stands for the program. -/
theorem finish_eq (draft : Draft) (name : String) (statements : List NodeId) :
    draft.finish name statements =
      (fun next : Draft => ⟨name, next.cells, draft.size, 0⟩) <$>
        (Edit.add (.sourceFile statements) .none).run draft := by
  have hpush := pushWith_eq draft (.sourceFile statements) .none
  rw [Draft.finish, Build.finish, Build.push]
  cases hrun : (Edit.add (.sourceFile statements) .none).run draft with
  | error missing =>
      rw [hrun] at hpush
      simp only [StateT.run', bind, StateT.bind, hpush]
      rfl
  | ok next =>
      rw [hrun] at hpush
      simp only [StateT.run', bind, StateT.bind, hpush]
      rfl

theorem finish_eq_ok_iff (draft : Draft) (name : String) (statements : List NodeId)
    (file : SourceFile) :
    draft.finish name statements = .ok file ↔
      (∀ id ∈ statements, id < draft.size) ∧
        file = ⟨name, (draft.extend (.sourceFile statements) .none).cells, draft.size, 0⟩ := by
  rw [finish_eq, map_eq_ok_iff]
  constructor
  · intro hfinish
    rcases hfinish with ⟨next, hrun, rfl⟩
    rcases (edit_add_eq_ok_iff ..).mp hrun with ⟨hchildren, rfl⟩
    exact ⟨hchildren, rfl⟩
  · intro hthere
    rcases hthere with ⟨hchildren, rfl⟩
    exact ⟨_, (edit_add_eq_ok_iff ..).mpr ⟨hchildren, rfl⟩, rfl⟩

end TreeQuery
