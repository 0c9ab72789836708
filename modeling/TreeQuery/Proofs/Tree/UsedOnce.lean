import TreeQuery.Proofs.Tree.Links

/-!
# Nodes that are used once

Nothing keeps a recipe from putting the same number into several slots, and the last
of them wins. A recipe that never does so makes a tree in the ordinary sense: every
node is named by one other node at most.

Whether a recipe uses its nodes once is seen from the recipe. Its edits are known
beforehand, so the slots that it fills are a list of numbers, and the statements of
the program are the last slots of all. That no number comes twice in that list is a
condition on the list alone.

The edits are followed from left to right. A number that is still to come in some
later slot has not been named so far, and after the addition that names it there are
no slots left that could name it again.

## Main definitions

* `slots`: The numbers in the slots that a list of edits fills.
* `UsedOnce`: A recipe and its program use every node at most once.
* `NamedOnce`: Every node is named by one other node at most.
* `SourceFile.BuiltOnce`: A file was made by a recipe that uses every node at most once.

## Theorems

* `namedOnce_of_edit`: Edits that use their nodes once keep every node named once.
* `namedOnce_of_usedOnce`: So does a recipe with the program that it is finished to.
* `SourceFile.BuiltOnce.linked`, `SourceFile.BuiltOnce.namedOnce`: What holds of the cells
  of such a file.
* `NamedOnce.parent_eq_some_iff`: The parent of a node is the only one that names it.
-/

namespace TreeQuery

/-- The numbers in the slots of the nodes that a list of edits adds, from left to right. -/
def slots : List Edit → List NodeId
  | [] => []
  | .add form _ :: rest => form.children ++ slots rest
  | .cover .. :: rest => slots rest

/-- No number comes twice in the slots of the nodes of a recipe and of the program. -/
def UsedOnce (steps : List Step) (statements : List NodeId) : Prop :=
  (slots (recipeEdits 0 steps) ++ statements).Nodup

instance (steps : List Step) (statements : List NodeId) : Decidable (UsedOnce steps statements) :=
  inferInstanceAs (Decidable (List.Nodup _))

/-- Every node is named by one other node at most. -/
def NamedOnce (cells : Array Cell) : Prop :=
  ∀ left right child, Names cells left child → Names cells right child → left = right

/-- A file that a recipe made without using a node twice. -/
def SourceFile.BuiltOnce (file : SourceFile) : Prop :=
  ∃ (steps : List Step) (draft : Draft) (statements : List NodeId),
    (({} : Draft).run steps).outcome = .ok draft ∧
      draft.finish file.name statements = .ok { file with serial := 0 } ∧
      UsedOnce steps statements

theorem slots_append (first second : List Edit) :
    slots (first ++ second) = slots first ++ slots second := by
  induction first with
  | nil => rfl
  | cons edit rest ih =>
      cases edit with
      | add form modifiers => simp only [List.cons_append, slots, ih, List.append_assoc]
      | cover id range => simp only [List.cons_append, slots, ih]

-- An addition names its children once if nobody has named them before.
theorem namedOnce_extend (draft : Draft) (form : Form) (modifiers : ModifierFlags)
    (hfresh : ∀ child ∈ form.children, ∀ parent, ¬ Names draft.cells parent child)
    (h : NamedOnce draft.cells) : NamedOnce (draft.extend form modifiers).cells := by
  intro left right child hleft hright
  rcases (names_extend ..).mp hleft with hleft | ⟨rfl, hchild⟩
  · rcases (names_extend ..).mp hright with hright | ⟨rfl, hchild⟩
    · exact h left right child hleft hright
    · exact absurd hleft (hfresh child hchild left)
  · rcases (names_extend ..).mp hright with hright | ⟨rfl, _⟩
    · exact absurd hright (hfresh child hchild right)
    · rfl

/-- Edits keep every node named once if they use their nodes once, and only nodes that nobody has
    named so far. -/
theorem namedOnce_of_edit (edits : List Edit) (draft next : Draft)
    (h : draft.edit edits = .ok next) (hslots : (slots edits).Nodup)
    (hfresh : ∀ child ∈ slots edits, ∀ parent, ¬ Names draft.cells parent child)
    (honce : NamedOnce draft.cells) : NamedOnce next.cells := by
  induction edits generalizing draft with
  | nil =>
      rw [edit_nil, Except.ok.injEq] at h
      rwa [← h]
  | cons edit rest ih =>
      rcases (edit_cons_eq_ok_iff ..).mp h with ⟨middle, hrun, hrest⟩
      cases edit with
      | add form modifiers =>
          rcases (edit_add_eq_ok_iff ..).mp hrun with ⟨_, rfl⟩
          rcases List.nodup_append.mp hslots with ⟨_, hlater, hdisjoint⟩
          refine ih _ hrest hlater (fun child hchild parent hnames => ?_) ?_
          · -- What a later slot names was not named before, nor by this addition.
            rcases (names_extend ..).mp hnames with hnames | ⟨_, hmem⟩
            · exact hfresh child (List.mem_append_right _ hchild) parent hnames
            · exact hdisjoint child hmem child hchild rfl
          · exact namedOnce_extend draft form modifiers
              (fun child hchild => hfresh child (List.mem_append_left _ hchild)) honce
      | cover id range =>
          rcases (edit_cover_eq_ok_iff ..).mp hrun with ⟨_, rfl⟩
          refine ih _ hrest hslots (fun child hchild parent hnames => ?_) ?_
          · exact hfresh child hchild parent ((names_cover ..).mp hnames)
          · intro left right child hleft hright
            exact honce left right child ((names_cover ..).mp hleft) ((names_cover ..).mp hright)

-- The program is one more addition, and its statements are its slots.
theorem namedOnce_of_usedOnce (steps : List Step) (draft : Draft) (statements : List NodeId)
    (hrun : (({} : Draft).run steps).outcome = .ok draft)
    (hthere : ∀ id ∈ statements, id < draft.size) (honce : UsedOnce steps statements) :
    NamedOnce (draft.extend (.sourceFile statements) .none).cells := by
  have hnobody : ∀ parent child, ¬ Names ({} : Draft).cells parent child := by
    rintro parent child ⟨cell, hcell, _⟩
    exact absurd hcell (by simp)
  have hedits : ({} : Draft).edit
      (recipeEdits 0 steps ++ [.add (.sourceFile statements) .none]) =
        .ok (draft.extend (.sourceFile statements) .none) := by
    rw [run_eq_edit] at hrun
    rw [edit_append, bind_eq_ok_iff]
    exact ⟨draft, hrun, (edit_cons_eq_ok_iff ..).mpr
      ⟨_, (edit_add_eq_ok_iff ..).mpr ⟨hthere, rfl⟩, edit_nil _⟩⟩
  refine namedOnce_of_edit _ _ _ hedits ?_ (fun child _ parent => hnobody parent child)
    fun left _ child hleft => absurd hleft (hnobody left child)
  rw [slots_append, slots, slots, List.append_nil]
  exact honce

theorem SourceFile.BuiltOnce.built {file : SourceFile} (h : file.BuiltOnce) : file.Built := by
  rcases h with ⟨steps, draft, statements, hrun, hfinish, _⟩
  exact ⟨steps, draft, statements, hrun, hfinish⟩

theorem SourceFile.BuiltOnce.linked {file : SourceFile} (h : file.BuiltOnce) :
    Linked file.cells :=
  h.built.linked

theorem SourceFile.BuiltOnce.namedOnce {file : SourceFile} (h : file.BuiltOnce) :
    NamedOnce file.cells := by
  rcases h with ⟨steps, draft, statements, hrun, hfinish, honce⟩
  rcases (finish_eq_ok_iff ..).mp hfinish with ⟨hthere, hfile⟩
  have hcells : file.cells = (draft.extend (.sourceFile statements) .none).cells :=
    congrArg SourceFile.cells hfile
  rw [hcells]
  exact namedOnce_of_usedOnce steps draft statements hrun hthere honce

-- A number that nobody names twice has the only node that names it for its parent.
theorem NamedOnce.parent_eq_some_iff {cells : Array Cell} (h : NamedOnce cells)
    (hlinked : Linked cells) {id parent : NodeId} {cell : Cell} (hcell : cells[id]? = some cell) :
    cell.parent = some parent ↔ Names cells parent id := by
  rw [hlinked.parent_eq_some_iff id cell hcell parent]
  exact ⟨fun hlast => hlast.1, fun hnames =>
    ⟨hnames, fun other hother => Nat.le_of_eq (h other parent id hother hnames)⟩⟩

end TreeQuery
