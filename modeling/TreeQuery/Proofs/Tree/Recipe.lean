import TreeQuery.Proofs.Tree.Edit
import TreeQuery.Tree.Step

/-!
# Recipes as edits

A step of a recipe may add several nodes. Here every step is written out as the
edits that it consists of, and a recipe as the edits of its steps one after the
other. The edits are known before the recipe is run: which numbers they contain
depends on nothing but the number of nodes at the start.

`Spells` is what lets this be proved in parts. It says of a builder that, on every
draft of a given size, it does what a list of edits does and answers a given
result. Builders in sequence spell their edits in sequence, each at the size that
the ones before it have left.

With `run_eq_edit` a law about all recipes is a law about all lists of edits, and
`run_induction` reduces it further to the two edits there are.

## Main definitions

* `Spells`: A builder does what a list of edits does.
* `Step.edits`: The edits of one step.
* `recipeEdits`: The edits of a recipe.

## Theorems

* `Spells.bind`: Builders in sequence spell their edits in sequence.
* `step_run_eq_edit`: A step does what its edits do.
* `run_eq_edit`: A recipe does what its edits do.
* `run_append_eq_ok_iff`: A recipe in two parts.
* `run_induction`: What the two edits keep is kept by every recipe.
-/

namespace TreeQuery

/-- On every draft with `size` nodes, a builder does what `edits` do and answers `result`. -/
def Spells (size : Nat) (action : Build α) (edits : List Edit) (result : α) : Prop :=
  ∀ draft : Draft, draft.size = size →
    action draft = (fun next => (result, next)) <$> draft.edit edits

namespace Spells

variable {α β : Type} {size : Nat}

theorem pure (result : α) : Spells size (Pure.pure result : Build α) [] result := by
  intro draft _
  rfl

-- A single addition answers with the size it starts from.
theorem pushWith (form : Form) (modifiers : ModifierFlags) :
    Spells size (Build.pushWith form modifiers) [.add form modifiers] size := by
  intro draft hsize
  rw [pushWith_eq, hsize, Draft.edit, List.foldlM_cons]
  cases (Edit.add form modifiers).run draft <;> rfl

theorem push (form : Form) : Spells size (Build.push form) [.add form .none] size :=
  pushWith form .none

theorem identifier (text : String) :
    Spells size (Build.identifier text) [.add (.identifier text) .none] size :=
  push (.identifier text)

theorem setRange (id : NodeId) (range : Range) :
    Spells size (Build.setRange id range) [.cover id range] () := by
  intro draft _
  rw [setRange_eq, Draft.edit, List.foldlM_cons]
  cases (Edit.cover id range).run draft <;> rfl

/-- Builders in sequence: the second starts from the size that the first leaves. -/
theorem bind {action : Build α} {next : α → Build β} {first second : List Edit} {middle : α}
    {result : β} (haction : Spells size action first middle)
    (hnext : Spells (size + added first) (next middle) second result) :
    Spells size (action >>= next) (first ++ second) result := by
  intro draft hsize
  have hbind : (action >>= next) draft = action draft >>= fun found => next found.1 found.2 := rfl
  rw [hbind, haction draft hsize, edit_append]
  cases hfirst : draft.edit first with
  | error missing => rfl
  | ok reached =>
      have hreached := size_of_edit first draft reached hfirst
      rw [hsize] at hreached
      exact hnext reached hreached

theorem map {action : Build α} {edits : List Edit} {result : α} (f : α → β)
    (haction : Spells size action edits result) :
    Spells size (f <$> action) edits (f result) := by
  intro draft hsize
  have hmap : (f <$> action) draft = action draft >>= fun found => .ok (f found.1, found.2) := rfl
  rw [hmap, haction draft hsize]
  cases draft.edit edits <;> rfl

end Spells

/-- For each name the edits that add it, and the node that wraps it. -/
def wrappedEdits (wrap : NodeId → Form) (size : Nat) : List String → List Edit
  | [] => []
  | name :: rest =>
    .add (.identifier name) .none :: .add (wrap size) .none :: wrappedEdits wrap (size + 2) rest

/-- The numbers of the nodes that wrap `count` names: every second one. -/
def wrappers (size count : Nat) : List NodeId :=
  (List.range count).map fun place => size + 2 * place + 1

theorem added_wrappedEdits (wrap : NodeId → Form) (size : Nat) (names : List String) :
    added (wrappedEdits wrap size names) = 2 * names.length := by
  induction names generalizing size with
  | nil => rfl
  | cons name rest ih =>
      simp only [wrappedEdits, added, ih, List.length_cons]
      omega

theorem wrappers_succ (size count : Nat) :
    wrappers size (count + 1) = (size + 1) :: wrappers (size + 2) count := by
  simp only [wrappers, List.range_succ_eq_map, List.map_cons, List.map_map, Nat.mul_zero,
    Nat.add_zero, List.cons.injEq, true_and]
  refine List.map_congr_left fun place _ => ?_
  change size + 2 * (place + 1) + 1 = size + 2 + 2 * place + 1
  omega

-- Wrapping names one by one. The induction is on the names: each of them takes two numbers,
-- so the rest starts two numbers later.
theorem spells_wrapped (wrap : NodeId → Form) (size : Nat) (names : List String) :
    Spells size
      (names.mapM fun name => do
        let name ← Build.identifier name
        Build.push (wrap name))
      (wrappedEdits wrap size names) (wrappers size names.length) := by
  induction names generalizing size with
  | nil => exact Spells.pure []
  | cons name rest ih =>
      rw [List.mapM_cons, List.length_cons, wrappers_succ]
      have hname : Spells size
          (do
            let name ← Build.identifier name
            Build.push (wrap name))
          [.add (.identifier name) .none, .add (wrap size) .none] (size + 1) :=
        Spells.bind (Spells.identifier name) (Spells.push _)
      have hedits : wrappedEdits wrap size (name :: rest) =
          [.add (.identifier name) .none, .add (wrap size) .none] ++
            (wrappedEdits wrap (size + 2) rest ++ []) := by
        rw [List.append_nil]
        rfl
      rw [hedits]
      exact Spells.bind hname (Spells.bind (ih (size + 2)) (Spells.pure _))

-- A node around all the names that were wrapped.
theorem spells_around (wrap : NodeId → Form) (around : List NodeId → Form) (size : Nat)
    (names : List String) :
    Spells size
      (do
        let inner ← names.mapM fun name => do
          let name ← Build.identifier name
          Build.push (wrap name)
        Build.push (around inner))
      (wrappedEdits wrap size names ++ [.add (around (wrappers size names.length)) .none])
      (size + 2 * names.length) := by
  rw [← added_wrappedEdits wrap size names]
  exact Spells.bind (spells_wrapped wrap size names) (Spells.push _)

namespace Step

/-- The edits of a step on a draft with `size` nodes. -/
def edits (size : Nat) : Step → List Edit
  | node form modifiers => [.add form modifiers]
  | range id covered => [.cover id covered]
  | identifier text => [.add (.identifier text) .none]
  | numericLiteral text => [.add (.numericLiteral text) .none]
  | stringLiteral text => [.add (.stringLiteral text) .none]
  | call callee arguments => [.add (.callExpression callee arguments) .none]
  | propertyAccess object name =>
    [.add (.identifier name) .none, .add (.propertyAccessExpression object size) .none]
  | binary left operator right => [.add (.binaryExpression left operator right) .none]
  | expressionStatement expression => [.add (.expressionStatement expression) .none]
  | block statements => [.add (.block statements) .none]
  | functionDeclaration name statements =>
    [.add (.identifier name) .none, .add (.block statements) .none,
     .add (.functionDeclaration (some size) [] (some (size + 1))) .none]
  | heritageClause keyword names =>
    wrappedEdits .expressionWithTypeArguments size names ++
      [.add (.heritageClause keyword (wrappers size names.length)) .none]
  | classDeclaration name heritage =>
    [.add (.identifier name) .none, .add (.classDeclaration (some size) heritage) .none]
  | variableStatement name initialValue =>
    [.add (.variableDeclaration name initialValue) .none, .add (.variableStatement [size]) .none]
  | arrayBindingPattern names =>
    wrappedEdits .bindingElement size names ++
      [.add (.arrayBindingPattern (wrappers size names.length)) .none]

/-- What a step hands back on a draft with `size` nodes. -/
def result (size : Nat) : Step → Placed
  | range .. => .nothing
  | propertyAccess .. | classDeclaration .. => .node (size + 1)
  | functionDeclaration .. => .node (size + 2)
  | heritageClause _ names | arrayBindingPattern names => .node (size + 2 * names.length)
  | variableStatement .. => .declared (size + 1) size
  | _ => .node size

end Step

-- A step does what its edits do. There is one case for each builder; those that wrap a list
-- of names are instances of the same loop.
theorem step_run_eq_edit (step : Step) (size : Nat) :
    Spells size step.run (step.edits size) (step.result size) := by
  cases step with
  | node form modifiers => exact Spells.map _ (Spells.pushWith form modifiers)
  | range id covered => exact Spells.map _ (Spells.setRange id covered)
  | identifier text => exact Spells.map _ (Spells.identifier text)
  | numericLiteral text => exact Spells.map _ (Spells.push (.numericLiteral text))
  | stringLiteral text => exact Spells.map _ (Spells.push (.stringLiteral text))
  | call callee arguments => exact Spells.map _ (Spells.push _)
  | propertyAccess object name =>
      exact Spells.map _ (Spells.bind (Spells.identifier name) (Spells.push _))
  | binary left operator right => exact Spells.map _ (Spells.push _)
  | expressionStatement expression => exact Spells.map _ (Spells.push _)
  | block statements => exact Spells.map _ (Spells.push _)
  | functionDeclaration name statements =>
      exact Spells.map _
        (Spells.bind (Spells.identifier name) (Spells.bind (Spells.push _) (Spells.push _)))
  | heritageClause keyword names =>
      exact Spells.map _
        (spells_around .expressionWithTypeArguments (.heritageClause keyword) size names)
  | classDeclaration name heritage =>
      exact Spells.map _ (Spells.bind (Spells.identifier name) (Spells.push _))
  | variableStatement name initialValue =>
      have hboth : Spells size (Build.variableStatement name initialValue)
          ((Step.variableStatement name initialValue).edits size) (size + 1, size) :=
        Spells.bind (Spells.push _) (Spells.bind (Spells.push _) (Spells.pure _))
      exact Spells.map (fun ids => Placed.declared ids.1 ids.2) hboth
  | arrayBindingPattern names =>
      exact Spells.map _ (spells_around .bindingElement .arrayBindingPattern size names)

/-- The edits of a recipe on a draft with `size` nodes: those of its steps, each at the size that
    the steps before it have left. -/
def recipeEdits (size : Nat) : List Step → List Edit
  | [] => []
  | step :: rest => step.edits size ++ recipeEdits (size + added (step.edits size)) rest

/-- A recipe does what its edits do, failures included. -/
theorem run_eq_edit (steps : List Step) (draft : Draft) :
    (draft.run steps).outcome = draft.edit (recipeEdits draft.size steps) := by
  induction steps generalizing draft with
  | nil => rfl
  | cons step rest ih =>
      rw [Draft.run, recipeEdits, edit_append, step_run_eq_edit step draft.size draft rfl]
      cases hstep : draft.edit (step.edits draft.size) with
      | error missing => rfl
      | ok next =>
          have hrest := ih next
          rw [size_of_edit _ draft next hstep] at hrest
          exact hrest

-- A recipe in two parts: the second goes on where the first has ended.
theorem run_append_eq_ok_iff (first second : List Step) (draft last : Draft) :
    (draft.run (first ++ second)).outcome = .ok last ↔
      ∃ middle, (draft.run first).outcome = .ok middle ∧
        (middle.run second).outcome = .ok last := by
  induction first generalizing draft with
  | nil => simp [Draft.run]
  | cons step rest ih =>
      rw [List.cons_append, Draft.run, Draft.run]
      cases step.run draft with
      | error missing => simp
      | ok found => exact ih found.2

/-- What the two edits keep is kept by every recipe. -/
theorem run_induction (P : Draft → Prop)
    (hadd : ∀ draft form modifiers, (∀ child ∈ form.children, child < draft.size) →
      P draft → P (draft.extend form modifiers))
    (hcover : ∀ draft id range, id < draft.size → P draft → P (draft.cover id range))
    (steps : List Step) (draft next : Draft) (h : (draft.run steps).outcome = .ok next)
    (hP : P draft) : P next := by
  rw [run_eq_edit] at h
  exact edit_induction P hadd hcover _ draft next h hP

end TreeQuery
