import TreeQuery.Proofs.Tree.Calls

/-!
# The node that is missing

A builder looks up every number that it is given, since the node has to be linked to its new
parent. The numbers of one node are looked up together, in the order of its slots. A call that
adds several nodes looks up the numbers of each when it is that node's turn, so the nodes that it
has added before count as there.

`lookupsOf` lists what some edits look up, each number with the count of nodes that decides it. A
lookup that fails is what the failure reports, so the same type serves for both. What becomes of
a call can then be told from its arguments: the first lookup that fails is reported, and the call
succeeds if there is none.

Of the numbers that a call looks up, those of its own nodes are always there. What remains are
the numbers that the caller hands over. They are looked up together, after the call has added
the nodes that it adds ahead of them. So a caller may well refer to a node of the call that is
under way, but never to the node that the number is looked up for.

## Main definitions

* `FirstFailure`: The first lookup that fails.
* `FailsOnFirst`: An outcome is decided by some lookups.
* `lookupsOf`: What some edits look up.
* `Step.ahead`, `Step.awaited`: When a call looks up which numbers of the caller.

## Theorems

* `FailsOnFirst.edit`, `FailsOnFirst.run`: Edits, and with them recipes, are decided by their
  lookups.
* `failing_lookupsOf_edits`: Only what the caller hands over can be missing.
* `edit_eq_error_iff_exists`: Edits fail if one of them does.
* `builds_fail_on_first_missing`: When a call fails, on which node, and what it does otherwise.
-/

namespace TreeQuery

/-- Of some lookups from left to right, the first that fails. -/
structure FirstFailure (lookups : List MissingNode) (missing : MissingNode) : Prop where
  size_le : missing.size ≤ missing.index
  exists_earlier : ∃ earlier later, lookups = earlier ++ missing :: later ∧
    ∀ lookup ∈ earlier, lookup.index < lookup.size

/-- An outcome is the failure that the first failing lookup reports. If all lookups succeed, it is
    a value with a certain property. -/
structure FailsOnFirst (lookups : List MissingNode) (outcome : Except MissingNode α)
    (property : α → Prop) : Prop where
  error_iff : ∀ missing, outcome = .error missing ↔ FirstFailure lookups missing
  ok_of_there : (∀ lookup ∈ lookups, lookup.index < lookup.size) →
    ∃ value, outcome = .ok value ∧ property value

/-- The numbers, looked up one after the other when there are `size` nodes. -/
def asked (size : Nat) (ids : List NodeId) : List MissingNode :=
  ids.map fun id => ⟨id, size⟩

/-- What edits look up on a draft with `size` nodes. -/
def lookupsOf (size : Nat) : List Edit → List MissingNode
  | [] => []
  | .add form _ :: rest => asked size form.children ++ lookupsOf (size + 1) rest
  | .cover id _ :: rest => asked size [id] ++ lookupsOf size rest

/-- The lookups that fail. -/
def failing (lookups : List MissingNode) : List MissingNode :=
  lookups.filter fun lookup => decide (lookup.size ≤ lookup.index)

namespace Step

/-- How many nodes a call adds before it looks up the numbers that the caller hands over. -/
def ahead : Step → Nat
  | propertyAccess .. | functionDeclaration .. | classDeclaration .. => 1
  | _ => 0

/-- The numbers that a caller hands over to be looked up, in the order in which they are. -/
def awaited : Step → List NodeId
  | range id _ => [id]
  | step => step.references

end Step

theorem failing_append (first second : List MissingNode) :
    failing (first ++ second) = failing first ++ failing second :=
  List.filter_append ..

theorem failing_eq_nil_iff (lookups : List MissingNode) :
    failing lookups = [] ↔ ∀ lookup ∈ lookups, lookup.index < lookup.size := by
  simp only [failing, List.filter_eq_nil_iff, decide_eq_true_eq, Nat.not_le]

theorem failing_asked_eq_nil {size : Nat} {ids : List NodeId} (h : ∀ id ∈ ids, id < size) :
    failing (asked size ids) = [] := by
  simpa only [failing_eq_nil_iff, asked, List.forall_mem_map] using h

-- The first failure does not depend on the lookups that succeed.
theorem firstFailure_iff_head? (lookups : List MissingNode) (missing : MissingNode) :
    FirstFailure lookups missing ↔ (failing lookups).head? = some missing := by
  rw [failing, List.head?_filter, List.find?_eq_some_iff_append, decide_eq_true_eq]
  simp only [Bool.not_eq_true', decide_eq_false_iff_not, Nat.not_le]
  exact ⟨fun h => ⟨h.size_le, h.exists_earlier⟩, fun h => ⟨h.1, h.2⟩⟩

-- Either all lookups succeed, or one of them is the first to fail.
theorem there_iff_not_firstFailure (lookups : List MissingNode) :
    (∀ lookup ∈ lookups, lookup.index < lookup.size) ↔
      ∀ missing, ¬ FirstFailure lookups missing := by
  simp only [← failing_eq_nil_iff, firstFailure_iff_head?, ← Option.eq_none_iff_forall_ne_some,
    ← ne_eq, List.head?_eq_none_iff]

namespace FailsOnFirst

variable {lookups other : List MissingNode} {outcome : Except MissingNode α} {property : α → Prop}

-- An outcome is a failure or a value, so it is enough to know which failure it can be.
theorem intro (herror : ∀ missing, outcome = .error missing ↔ FirstFailure lookups missing)
    (hok : ∀ value, outcome = .ok value → property value) :
    FailsOnFirst lookups outcome property := by
  refine ⟨herror, fun hthere => ?_⟩
  rw [there_iff_not_firstFailure] at hthere
  cases outcome with
  | error missing => exact absurd ((herror missing).mp rfl) (hthere missing)
  | ok value => exact ⟨value, rfl, hok value rfl⟩

theorem there_of_ok (h : FailsOnFirst lookups outcome property) {value : α}
    (hvalue : outcome = .ok value) : ∀ lookup ∈ lookups, lookup.index < lookup.size := by
  rw [there_iff_not_firstFailure]
  intro missing hfirst
  rw [← h.error_iff, hvalue] at hfirst
  exact absurd hfirst (by simp)

theorem of_ok (h : FailsOnFirst lookups outcome property) {value : α}
    (hvalue : outcome = .ok value) : property value := by
  rcases h.ok_of_there (h.there_of_ok hvalue) with ⟨found, hfound, hproperty⟩
  rw [hvalue, Except.ok.injEq] at hfound
  rwa [hfound]

theorem of_failing_eq (h : FailsOnFirst lookups outcome property)
    (hsame : failing lookups = failing other) : FailsOnFirst other outcome property := by
  refine intro (fun missing => ?_) fun value => h.of_ok
  rw [h.error_iff, firstFailure_iff_head?, hsame, firstFailure_iff_head?]

theorem map {change : α → β} {further : β → Prop} (h : FailsOnFirst lookups outcome property)
    (hchange : ∀ value, property value → further (change value)) :
    FailsOnFirst lookups (change <$> outcome) further := by
  refine intro (fun missing => ?_) fun value hvalue => ?_
  · rw [map_eq_error_iff, h.error_iff]
  · rcases (map_eq_ok_iff ..).mp hvalue with ⟨inner, hinner, rfl⟩
    exact hchange inner (h.of_ok hinner)

end FailsOnFirst

theorem firstFailure_append_iff (first second : List MissingNode) (missing : MissingNode) :
    FirstFailure (first ++ second) missing ↔ FirstFailure first missing ∨
      (∀ lookup ∈ first, lookup.index < lookup.size) ∧ FirstFailure second missing := by
  rw [← failing_eq_nil_iff, firstFailure_iff_head?, firstFailure_iff_head?,
    firstFailure_iff_head?, failing_append, List.head?_append, Option.or_eq_some_iff,
    List.head?_eq_none_iff]

theorem lookupsOf_add (size : Nat) (form : Form) (modifiers : ModifierFlags) :
    lookupsOf size [.add form modifiers] = asked size form.children :=
  List.append_nil _

/-- An edit looks up its numbers, and fails on the first that is missing. -/
theorem edit_run_eq_error_iff (edit : Edit) (draft : Draft) (missing : MissingNode) :
    edit.run draft = .error missing ↔ FirstFailure (lookupsOf draft.size [edit]) missing := by
  cases edit with
  | add form modifiers =>
      have hasked : (failing (asked draft.size form.children)).head? =
          (form.children.find? fun child => decide (draft.size ≤ child)).map
            fun child => ⟨child, draft.size⟩ := by
        rw [failing, List.head?_filter, asked, List.find?_map]
        rfl
      rw [lookupsOf_add, firstFailure_iff_head?, hasked, Edit.run, Build.pushWith]
      cases form.children.find? fun child => decide (draft.size ≤ child) with
      | none => simp [Functor.map, Except.map]
      | some child => simp [Functor.map, Except.map]
  | cover id range =>
      rw [lookupsOf, lookupsOf, List.append_nil, firstFailure_iff_head?, Edit.run, Build.setRange]
      by_cases hid : id < draft.size
      · rw [failing_asked_eq_nil (by simpa using hid), if_pos hid]
        simp [Functor.map, Except.map]
      · rw [if_neg hid]
        simp [Functor.map, Except.map, failing, asked, Nat.le_of_not_lt hid]

theorem edit_cons_eq_error_iff (draft : Draft) (edit : Edit) (rest : List Edit)
    (missing : MissingNode) :
    draft.edit (edit :: rest) = .error missing ↔ edit.run draft = .error missing ∨
      ∃ middle, edit.run draft = .ok middle ∧ middle.edit rest = .error missing := by
  rw [Draft.edit, List.foldlM_cons]
  cases edit.run draft with
  | error cause => simp [bind, Except.bind]
  | ok middle => simp [bind, Except.bind, Draft.edit]

theorem lookupsOf_append (first second : List Edit) (size : Nat) :
    lookupsOf size (first ++ second) =
      lookupsOf size first ++ lookupsOf (size + added first) second := by
  induction first generalizing size with
  | nil => rfl
  | cons edit rest ih =>
      cases edit with
      | add form modifiers =>
          rw [List.cons_append, lookupsOf, lookupsOf, ih, added, List.append_assoc, Nat.add_assoc,
            Nat.add_comm 1]
      | cover id range => rw [List.cons_append, lookupsOf, lookupsOf, ih, added, List.append_assoc]

-- A single edit is decided by what it looks up.
theorem failsOnFirst_edit_run (edit : Edit) (draft : Draft) :
    FailsOnFirst (lookupsOf draft.size [edit]) (edit.run draft)
      fun next => next.size = draft.size + added [edit] := by
  refine .intro (edit_run_eq_error_iff edit draft) fun next hrun => ?_
  cases edit with
  | add form modifiers =>
      rw [((edit_add_eq_ok_iff ..).mp hrun).2, Draft.size_extend]
      rfl
  | cover id range =>
      rw [((edit_cover_eq_ok_iff ..).mp hrun).2, Draft.size_cover]
      rfl

/-- Edits fail on the first number that is missing when it is looked up. The induction is on the
    edits: the later ones look up their numbers among the nodes that the first has left. -/
theorem edit_eq_error_iff (edits : List Edit) (draft : Draft) (missing : MissingNode) :
    draft.edit edits = .error missing ↔ FirstFailure (lookupsOf draft.size edits) missing := by
  induction edits generalizing draft with
  | nil => simp [edit_nil, lookupsOf, firstFailure_iff_head?, failing]
  | cons edit rest ih =>
      have hfirst := failsOnFirst_edit_run edit draft
      have hlookups := lookupsOf_append [edit] rest draft.size
      rw [List.singleton_append] at hlookups
      rw [edit_cons_eq_error_iff, hfirst.error_iff, hlookups, firstFailure_append_iff]
      refine or_congr_right ?_
      constructor
      · intro h
        rcases h with ⟨middle, hrun, hrest⟩
        rw [ih, hfirst.of_ok hrun] at hrest
        exact ⟨hfirst.there_of_ok hrun, hrest⟩
      · intro h
        rcases hfirst.ok_of_there h.1 with ⟨middle, hrun, hsize⟩
        refine ⟨middle, hrun, ?_⟩
        rw [ih, hsize]
        exact h.2

/-- Edits are decided by their lookups. -/
theorem FailsOnFirst.edit (draft : Draft) (edits : List Edit) :
    FailsOnFirst (lookupsOf draft.size edits) (draft.edit edits)
      fun next => next.size = draft.size + added edits :=
  intro (edit_eq_error_iff edits draft) fun next => size_of_edit edits draft next

/-- So are recipes. -/
theorem FailsOnFirst.run (draft : Draft) (steps : List Step) :
    FailsOnFirst (lookupsOf draft.size (recipeEdits draft.size steps)) (draft.run steps).outcome
      fun next => next.size = draft.size + added (recipeEdits draft.size steps) := by
  rw [run_eq_edit]
  exact .edit draft _

/-- An action that does what some edits do is decided by what they look up. -/
theorem Spells.failsOnFirst {action : Build α} {edits : List Edit} {result : α} {draft : Draft}
    (h : Spells draft.size action edits result) :
    FailsOnFirst (lookupsOf draft.size edits) (action draft)
      fun found => found.1 = result ∧ found.2.size = draft.size + added edits := by
  rw [h draft rfl]
  exact (FailsOnFirst.edit draft edits).map fun next hnext => ⟨rfl, hnext⟩

/-- Edits fail exactly if one of them fails on the draft that those before it have led to. -/
theorem edit_eq_error_iff_exists (edits : List Edit) (draft : Draft) (missing : MissingNode) :
    draft.edit edits = .error missing ↔ ∃ earlier edit later reached,
      edits = earlier ++ edit :: later ∧ draft.edit earlier = .ok reached ∧
        edit.run reached = .error missing := by
  constructor
  · intro h
    induction edits generalizing draft with
    | nil => exact absurd h (by simp [edit_nil])
    | cons first rest ih =>
        rcases (edit_cons_eq_error_iff ..).mp h with hfirst | ⟨middle, hfirst, hrest⟩
        · exact ⟨[], first, rest, draft, rfl, edit_nil draft, hfirst⟩
        · rcases ih middle hrest with ⟨earlier, edit, later, reached, rfl, hearlier, hedit⟩
          refine ⟨first :: earlier, edit, later, reached, rfl, ?_, hedit⟩
          exact (edit_cons_eq_ok_iff ..).mpr ⟨middle, hfirst, hearlier⟩
  · intro h
    rcases h with ⟨earlier, edit, later, reached, rfl, hearlier, hedit⟩
    rw [edit_append, hearlier]
    exact (edit_cons_eq_error_iff ..).mpr (Or.inl hedit)

-- The small nodes of a call that wraps names are there when they are looked up.
theorem failing_lookupsOf_wrappedEdits {wrap : NodeId → Form}
    (hwrap : ∀ id, (wrap id).children = [id]) (size : Nat) (names : List String) :
    failing (lookupsOf size (wrappedEdits wrap size names)) = [] := by
  induction names generalizing size with
  | nil => rfl
  | cons name rest ih =>
      rw [wrappedEdits, lookupsOf, lookupsOf, failing_append, failing_append, ih, List.append_nil,
        hwrap, failing_asked_eq_nil (by simp [Form.children]), failing_asked_eq_nil (by simp)]
      rfl

theorem failing_lookupsOf_around {wrap : NodeId → Form} (hwrap : ∀ id, (wrap id).children = [id])
    {around : Form} {size : Nat} {names : List String}
    (haround : around.children = wrappers size names.length) :
    failing (lookupsOf size (wrappedEdits wrap size names ++ [.add around .none])) = [] := by
  rw [lookupsOf_append, failing_append, failing_lookupsOf_wrappedEdits hwrap, List.nil_append,
    lookupsOf_add, haround, added_wrappedEdits]
  refine failing_asked_eq_nil fun id hid => ?_
  rcases List.mem_map.mp hid with ⟨place, hplace, rfl⟩
  have hlt := List.mem_range.mp hplace
  change size + 2 * place + 1 < size + 2 * names.length
  omega

/-- What a call looks up and does not find is among the numbers that the caller hands over. They
    are looked up after the call has added the nodes that it adds ahead. -/
theorem failing_lookupsOf_edits (step : Step) (size : Nat) :
    failing (lookupsOf size (step.edits size)) =
      failing (asked (size + step.ahead) step.awaited) := by
  cases step with
  | heritageClause keyword names => exact failing_lookupsOf_around (fun _ => rfl) rfl
  | arrayBindingPattern names => exact failing_lookupsOf_around (fun _ => rfl) rfl
  | functionDeclaration name statements =>
      -- The name and the block are there when the function itself is added.
      have hown : failing (asked (size + 1 + 1) [size, size + 1]) = [] := by
        refine failing_asked_eq_nil (List.forall_mem_cons.mpr ⟨?_, ?_⟩)
        · exact Nat.lt_succ_of_lt (Nat.lt_succ_self size)
        · exact List.forall_mem_singleton.mpr (Nat.lt_succ_self (size + 1))
      change failing (asked (size + 1) statements ++ (asked (size + 1 + 1) [size, size + 1] ++ []))
        = failing (asked (size + 1) statements)
      rw [failing_append, List.append_nil, hown, List.append_nil]
  | _ =>
      simp [Step.edits, lookupsOf, Step.ahead, Step.awaited, Step.references, Form.children, asked,
        failing, List.filter_cons]

/-- A call is decided by the numbers that the caller hands over. -/
theorem FailsOnFirst.step (draft : Draft) (step : Step) :
    FailsOnFirst (asked (draft.size + step.ahead) step.awaited) (step.run draft)
      fun found => found.1 = step.result draft.size ∧
        found.2.size = draft.size + added (step.edits draft.size) :=
  (step_run_eq_edit step draft.size).failsOnFirst.of_failing_eq
    (failing_lookupsOf_edits step draft.size)

-- A call for a single node is decided by the slots of the node.
theorem FailsOnFirst.pushWith (draft : Draft) (form : Form) (modifiers : ModifierFlags) :
    FailsOnFirst (asked draft.size form.children) (Build.pushWith form modifiers draft)
      fun found => found.1 = draft.size ∧ found.2.size = draft.size + 1 := by
  have hspells : Spells draft.size (Build.pushWith form modifiers) _ _ :=
    Spells.pushWith form modifiers
  have hpush := hspells.failsOnFirst
  rwa [lookupsOf_add] at hpush

-- Finishing is decided by the statements.
theorem FailsOnFirst.finish (draft : Draft) (name : String) (statements : List NodeId) :
    FailsOnFirst (asked draft.size statements) (draft.finish name statements)
      fun file => file.root = draft.size ∧ file.size = draft.size + 1 := by
  have hroot := failsOnFirst_edit_run (.add (.sourceFile statements) .none) draft
  rw [lookupsOf_add] at hroot
  rw [finish_eq]
  exact hroot.map fun next hnext => ⟨rfl, hnext⟩

theorem finish_eq_error_iff (draft : Draft) (name : String) (statements : List NodeId)
    (missing : MissingNode) :
    draft.finish name statements = .error missing ↔
      Build.push (.sourceFile statements) draft = .error missing := by
  rw [(FailsOnFirst.finish draft name statements).error_iff, Build.push,
    (FailsOnFirst.pushWith ..).error_iff]
  rfl

-- A child has a smaller number than the node, so no node is a child of itself.
theorem Linked.not_names_self {cells : Array Cell} (h : Linked cells) (id : NodeId) :
    ¬ Names cells id id :=
  fun hself => Nat.lt_irrefl _ (h.child_lt id id hself)

/-- A call for a single node fails exactly on the first number in its slots that no node of the
    draft has, and otherwise adds a node under the next number.

    Every other call fails exactly if one of the edits that it consists of does. That happens on
    the first of the numbers that the caller hands over, looked up among the nodes of the draft
    and those that the call has added ahead. Finishing fails exactly if the addition of the program
    does. No node that calls have added is a child of itself. -/
theorem builds_fail_on_first_missing (draft : Draft) :
    (∀ form modifiers,
      FailsOnFirst (asked draft.size form.children) (Build.pushWith form modifiers draft)
        fun found => found.1 = draft.size ∧ found.2.size = draft.size + 1) ∧
    (∀ form, FailsOnFirst (asked draft.size form.children) (Build.push form draft)
      fun found => found.1 = draft.size ∧ found.2.size = draft.size + 1) ∧
    (∀ step : Step,
      FailsOnFirst (asked (draft.size + step.ahead) step.awaited) (step.run draft)
        (fun found => found.1 = step.result draft.size ∧
          found.2.size = draft.size + added (step.edits draft.size)) ∧
      ∀ missing, step.run draft = .error missing ↔ ∃ earlier edit later reached,
        step.edits draft.size = earlier ++ edit :: later ∧ draft.edit earlier = .ok reached ∧
          edit.run reached = .error missing) ∧
    (∀ name statements,
      FailsOnFirst (asked draft.size statements) (draft.finish name statements)
        (fun file => file.root = draft.size ∧ file.size = draft.size + 1) ∧
      ∀ missing, draft.finish name statements = .error missing ↔
        Build.push (.sourceFile statements) draft = .error missing) ∧
    ∀ steps, (({} : Draft).run steps).outcome = .ok draft → ∀ id, ¬ Names draft.cells id id ∧
      ∀ name statements file, draft.finish name statements = .ok file →
        ¬ Names file.cells id id := by
  refine ⟨.pushWith draft, fun form => .pushWith draft form .none, fun step => ?_,
    fun name statements => ?_, fun steps hrun id => ?_⟩
  · refine ⟨.step draft step, fun missing => ?_⟩
    rw [step_run_eq_edit step draft.size draft rfl, map_eq_error_iff, edit_eq_error_iff_exists]
  · exact ⟨.finish draft name statements, finish_eq_error_iff draft name statements⟩
  · refine ⟨(linked_run steps {} draft hrun linked_empty).not_names_self id, ?_⟩
    intro name statements file hfinish
    exact (linked_finish steps draft name statements file hrun hfinish).not_names_self id

/-- On a draft with a single node, the access to a property may refer to the name that it adds
    ahead, but not to itself. Of the statements of a function the first that is missing is
    reported, after the name of the function has been added. -/
theorem builds_fail_on_first_missing_ahead :
    ∃ draft, (({} : Draft).run [.identifier "x"]).outcome = .ok draft ∧
      (∀ id, ¬ Names draft.cells id id) ∧
      (∃ found, (Step.propertyAccess 1 "y").run draft = .ok found ∧ found.1 = .node 2) ∧
      (Step.propertyAccess 2 "y").run draft = .error ⟨2, 2⟩ ∧
      (Step.functionDeclaration "f" [1, 4, 3]).run draft = .error ⟨4, 2⟩ := by
  have hrun : (({} : Draft).run [.identifier "x"]).outcome =
      .ok ⟨#[⟨.identifier "x", .none, none, {}⟩]⟩ := rfl
  rcases builds_fail_on_first_missing ⟨#[⟨.identifier "x", .none, none, {}⟩]⟩ with
    ⟨_, _, hsteps, _, hself⟩
  refine ⟨_, hrun, fun id => (hself _ hrun id).1, ?_, ?_, ?_⟩
  · rcases (hsteps (.propertyAccess 1 "y")).1.ok_of_there (by decide) with ⟨found, hfound, hnode⟩
    exact ⟨found, hfound, hnode.1⟩
  · refine ((hsteps (.propertyAccess 2 "y")).1.error_iff ⟨2, 2⟩).mpr ?_
    exact ⟨Nat.le_refl 2, [], [], rfl, by decide⟩
  · refine ((hsteps (.functionDeclaration "f" [1, 4, 3])).1.error_iff ⟨4, 2⟩).mpr ?_
    exact ⟨by decide, [⟨1, 2⟩], [⟨3, 2⟩], rfl, by decide⟩

end TreeQuery
