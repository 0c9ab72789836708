import TreeQuery.Proofs.Tree.Calls
import TreeQuery.Query.Statement

/-!
# Which files are modules

A file is a module if one of its statements exports something. The question is put to the
finished file, where the statements have been handed around: they may stand in blocks that
were added later, other nodes may have taken them over, and around them there may be
exports that nobody listed. None of that has a say. What decides is what the listed nodes
were added as, their kinds and their modifiers, and these are written once.

So the answer is a function of one list, and two programs with the same list have the same
answer, whatever else they are made of. Which nodes can export at all is seen from the
recipe as well: the builders of fragments have neither a form that exports nor a modifier,
so such a node was added as a single one.

## Main definitions

* `Exports`: The kinds and modifiers that export something.
* `addedAs?`: The kind and the modifiers that a node was added with.

## Theorems

* `isExported_iff`: Exporting, by the kind and the modifiers of a node.
* `not_exports_of_mem_edits`: Builders of fragments add nothing that exports.
* `addedAs?_of_node`: A node of a finished file is what it was added as.
* `isModule_eq`: The answer, from what the statements were added as.
* `module_is_decided_by_statements`: Which files are modules.
-/

namespace TreeQuery

/-- A node of the kind, with the modifiers, exports something. -/
def Exports (kind : Kind) (modifiers : ModifierFlags) : Prop :=
  kind = .exportAssignment ∨ kind = .exportDeclaration ∨
    modifiers.meets ModifierFlags.exported = true

instance (kind : Kind) (modifiers : ModifierFlags) : Decidable (Exports kind modifiers) :=
  inferInstanceAs (Decidable (_ ∨ _ ∨ _))

/-- The kind and the modifiers with which a recipe adds the node with a certain number. -/
def addedAs? (steps : List Step) (id : NodeId) : Option (Kind × ModifierFlags) :=
  ((additions (recipeEdits 0 steps))[id]?).map fun entry => (entry.1.kind, entry.2)

theorem isExported_iff (node : Node) :
    node.isExported = true ↔ Exports node.kind node.cell.modifiers := by
  have hflag : node.hasModifier ModifierFlags.exported =
      node.cell.modifiers.meets ModifierFlags.exported := rfl
  unfold Node.isExported Node.kind Exports
  cases node.form <;> simp [hflag, Form.kind]

-- Names that are wrapped one by one are names and their wrappers.
theorem kind_of_mem_wrappedEdits (wrap : NodeId → Form) (size : Nat) (names : List String) :
    ∀ entry ∈ additions (wrappedEdits wrap size names),
      entry.1.kind = .identifier ∨ ∃ id, entry.1 = wrap id := by
  induction names generalizing size with
  | nil => exact fun entry hentry => absurd hentry List.not_mem_nil
  | cons name rest ih =>
      refine List.forall_mem_cons.mpr ⟨Or.inl rfl, ?_⟩
      exact List.forall_mem_cons.mpr ⟨Or.inr ⟨size, rfl⟩, ih (size + 2)⟩

-- A node without modifiers exports something by its kind only.
theorem exports_none_iff (kind : Kind) :
    Exports kind .none ↔ kind = .exportAssignment ∨ kind = .exportDeclaration := by
  have hnone : Flags.none.meets ModifierFlags.exported = false := by decide
  simp only [Exports, hnone, Bool.false_eq_true, or_false]

theorem not_exports_of_mem_around {wrap : NodeId → Form}
    (hwrap : ∀ id, ¬ Exports (wrap id).kind .none) {around : Form}
    (haround : ¬ Exports around.kind .none) (size : Nat) (names : List String) :
    ∀ entry ∈ additions (wrappedEdits wrap size names ++ [.add around .none]),
      ¬ Exports entry.1.kind entry.2 := by
  intro entry hentry
  rw [modifiers_of_mem_around wrap around size names entry hentry]
  rw [additions_append] at hentry
  rcases List.mem_append.mp hentry with hinner | hlast
  · rcases kind_of_mem_wrappedEdits wrap size names entry hinner with hkind | ⟨id, hform⟩
    · rw [hkind, exports_none_iff]
      decide
    · rw [hform]
      exact hwrap id
  · rw [List.mem_singleton.mp hlast]
    exact haround

/-- Of the builders only the one for a single node adds nodes that export something. -/
theorem not_exports_of_mem_edits (step : Step) (size : Nat) :
    ∀ entry ∈ additions (step.edits size),
      step = .node entry.1 entry.2 ∨ ¬ Exports entry.1.kind entry.2 := by
  cases step with
  | node form modifiers => exact List.forall_mem_singleton.mpr (Or.inl rfl)
  | heritageClause keyword names =>
      refine fun entry hentry => Or.inr (not_exports_of_mem_around ?_ ?_ size names entry hentry)
      · exact fun id => (by decide : ¬ Exports .expressionWithTypeArguments .none)
      · exact (by decide : ¬ Exports .heritageClause .none)
  | arrayBindingPattern names =>
      refine fun entry hentry => Or.inr (not_exports_of_mem_around ?_ ?_ size names entry hentry)
      · exact fun id => (by decide : ¬ Exports .bindingElement .none)
      · exact (by decide : ¬ Exports .arrayBindingPattern .none)
  | _ =>
      simp only [Step.edits, additions, List.filterMap_cons, List.filterMap_nil, Edit.addition?,
        List.mem_cons, List.not_mem_nil, or_false, forall_eq_or_imp, forall_eq, false_implies,
        implies_true, reduceCtorEq, false_or, Form.kind, exports_none_iff, not_false_eq_true,
        and_self, or_self]

/-- A node that exports something was added by a call for a single node. -/
theorem addedAs?_eq_some_iff_of_exports {steps : List Step} {draft : Draft}
    (hrun : (({} : Draft).run steps).outcome = .ok draft) {kind : Kind}
    {modifiers : ModifierFlags} (hexports : Exports kind modifiers) (id : NodeId) :
    addedAs? steps id = some (kind, modifiers) ↔
      ∃ place form, HandsBack steps place (.node form modifiers) id ∧ form.kind = kind := by
  constructor
  · intro hadded
    rcases Option.map_eq_some_iff.mp hadded with ⟨⟨form, given⟩, hentry, hsame⟩
    rcases Prod.mk.inj hsame with ⟨rfl, rfl⟩
    have hempty : (additions (recipeEdits ({} : Draft).size steps))[id]? = some (form, given) :=
      hentry
    rcases exists_call_of_addition hrun hempty with
      ⟨place, step, size, offset, hstep, hplaced, hoffset, hadds⟩
    have hmem := List.mem_of_getElem? hadds
    rcases not_exports_of_mem_edits step size _ hmem with rfl | hnot
    · -- The call adds one node, so the offset is zero.
      have hzero : offset < 1 := (List.getElem?_eq_some_iff.mp hadds).1
      have hid : id = size := by
        rw [Nat.lt_one_iff.mp hzero] at hoffset
        exact (Nat.zero_add id).symm.trans hoffset
      exact ⟨place, form, ⟨hstep, hid ▸ hplaced⟩, rfl⟩
    · exact absurd hexports hnot
  · intro hcall
    rcases hcall with ⟨place, form, hback, rfl⟩
    rw [addedAs?, hback.addition_eq hrun]
    rfl

/-- A node of a finished file is what it was added as. -/
theorem addedAs?_of_node {steps : List Step} {draft : Draft} {name : String}
    {statements : List NodeId} {file : SourceFile}
    (hrun : (({} : Draft).run steps).outcome = .ok draft)
    (hfinish : draft.finish name statements = .ok file) {node : Node} (hfile : node.file = file)
    (hid : node.id < draft.size) :
    addedAs? steps node.id = some (node.kind, node.cell.modifiers) := by
  rcases (finish_eq_ok_iff ..).mp hfinish with ⟨_, rfl⟩
  have hdraft := records_of_run steps draft hrun
  have hrecords := records_extend draft (.sourceFile statements) .none hdraft
  have hcell := getElem?_id node
  rw [hfile] at hcell
  have hentry := hrecords.addition_eq node.id node.cell hcell
  rw [additions_append, List.getElem?_append_left (hdraft.size_eq ▸ hid)] at hentry
  rw [addedAs?, hentry]
  rfl

/-- Whether a finished file is a module is read off what its statements were added as. -/
theorem isModule_eq {steps : List Step} {draft : Draft} {name : String}
    {statements : List NodeId} {file : SourceFile}
    (hrun : (({} : Draft).run steps).outcome = .ok draft)
    (hfinish : draft.finish name statements = .ok file) :
    file.isModule = .ok ((statements.map (addedAs? steps)).any fun added =>
      added.any fun entry => decide (Exports entry.1 entry.2)) := by
  rcases root_of_finish draft name statements file hfinish with
    ⟨root, nodes, hroot, _, _, hchildren, hids⟩
  have hthere := ((finish_eq_ok_iff ..).mp hfinish).1
  have hstatements : file.statements = .ok nodes :=
    (bind_eq_ok_iff ..).mpr ⟨root, hroot, hchildren⟩
  have hfiles := ((children_eq_ok_iff ..).mp hchildren).1
  have hfile := ((node_eq_ok_iff ..).mp hroot).1
  have hadded : statements.map (addedAs? steps) =
      nodes.map fun node => some (node.kind, node.cell.modifiers) := by
    rw [← hids, List.map_map]
    refine List.map_congr_left fun node hnode => ?_
    have hid := hthere node.id (hids ▸ List.mem_map_of_mem hnode)
    exact addedAs?_of_node hrun hfinish ((hfiles node hnode).trans hfile) hid
  have hexported : Node.isExported = fun node => decide (Exports node.kind node.cell.modifiers) :=
    funext fun node => Bool.eq_iff_iff.mpr ((isExported_iff node).trans decide_eq_true_iff.symm)
  rw [SourceFile.isModule, hstatements, hadded, List.any_map, hexported]
  rfl

/-- Whether a finished file is a module is always answered, and the answer is yes exactly if one of
    the listed statements was added as an export or with a modifier that exports. Such a node was
    handed back by a call for a single node. Two recipes whose lists of statements agree, place by
    place, in the kinds and the modifiers that the nodes were added with make files with the same
    answer. -/
theorem module_is_decided_by_statements (steps : List Step) (draft : Draft) (name : String)
    (statements : List NodeId) (file : SourceFile)
    (hrun : (({} : Draft).run steps).outcome = .ok draft)
    (hfinish : draft.finish name statements = .ok file) :
    (∃ answer, file.isModule = .ok answer ∧
      (answer = true ↔ ∃ id ∈ statements, ∃ kind modifiers,
        addedAs? steps id = some (kind, modifiers) ∧ Exports kind modifiers)) ∧
    (∀ id kind modifiers, Exports kind modifiers →
      (addedAs? steps id = some (kind, modifiers) ↔
        ∃ place form, HandsBack steps place (.node form modifiers) id ∧ form.kind = kind)) ∧
    ∀ others otherDraft otherName otherStatements other,
      (({} : Draft).run others).outcome = .ok otherDraft →
      otherDraft.finish otherName otherStatements = .ok other →
      statements.map (addedAs? steps) = otherStatements.map (addedAs? others) →
      file.isModule = other.isModule := by
  have hanswer := isModule_eq hrun hfinish
  refine ⟨⟨_, hanswer, ?_⟩, fun id kind modifiers hexports =>
    addedAs?_eq_some_iff_of_exports hrun hexports id, ?_⟩
  · simp only [List.any_map, List.any_eq_true, Function.comp_apply, Option.any_eq_true,
      decide_eq_true_eq, Prod.exists]
  · intro others otherDraft otherName otherStatements other hother hclose hsame
    rw [hanswer, isModule_eq hother hclose, hsame]

/-- A class that is exported inside a block, and an export that belongs to nothing, next to a file
    that consists of an empty block: neither is a module. With the class among its statements the
    first one is, although the class stands in the block as well. -/
theorem module_is_decided_by_statements_nested :
    ∃ (draft : Draft) (inner plain listed : SourceFile),
      (({} : Draft).run [.node (.classDeclaration none []) ModifierFlags.exported, .block [0],
        .node (.exportDeclaration none) .none]).outcome = .ok draft ∧
      draft.finish "a.ts" [1] = .ok inner ∧ inner.isModule = plain.isModule ∧
      plain.isModule = .ok false ∧ draft.finish "a.ts" [0, 1] = .ok listed ∧
      ∃ answer, listed.isModule = .ok answer ∧ answer = true := by
  have hrun : (({} : Draft).run [.node (.classDeclaration none []) ModifierFlags.exported,
      .block [0], .node (.exportDeclaration none) .none]).outcome =
        .ok ⟨#[⟨.classDeclaration none [], ModifierFlags.exported, some 1, {}⟩,
          ⟨.block [0], .none, none, {}⟩, ⟨.exportDeclaration none, .none, none, {}⟩]⟩ := rfl
  have hplain : (({} : Draft).run [.block []]).outcome =
      .ok ⟨#[⟨.block [], .none, none, {}⟩]⟩ := rfl
  have hsame := (module_is_decided_by_statements _ _ "a.ts" [1] _ hrun rfl).2.2 _ _ "b.ts" [0] _
    hplain rfl (by decide)
  rcases (module_is_decided_by_statements _ _ "a.ts" [0, 1] _ hrun rfl).1 with
    ⟨answer, hanswer, hiff⟩
  refine ⟨_, _, _, _, hrun, rfl, hsame, rfl, rfl, answer, hanswer, hiff.mpr ?_⟩
  exact ⟨0, List.mem_cons_self, .classDeclaration, ModifierFlags.exported, rfl, by decide⟩

end TreeQuery
