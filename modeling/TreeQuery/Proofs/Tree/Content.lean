import TreeQuery.Proofs.Tree.Recipe
import TreeQuery.Proofs.Tree.Walk

/-!
# What becomes of the nodes

A draft is written to all the time. Every addition rewrites the links of the nodes that
it names, and the range of a node may be set at any moment, also long after the node was
added. What a node is, its form and its modifiers, is written once and then left alone.

So the cells can be told from the edits without following them. The node with the number
`i` has the form and the modifiers of addition `i`, and the range that was set last for
`i`, if there ever was one. `Records` says that. It holds of the empty draft, either of
the two edits keeps it, and so it holds at every point of a recipe and in the file.

What lies between two points follows. The later edits begin with the earlier ones, so a
node that was there is there under the same number and is the same node. Only its range
may be another one, and only because somebody set it.

## Main definitions

* `additions`: The forms and modifiers of the nodes that edits add.
* `lastRange?`: The range that edits give to a node in the end.
* `Records`: The cells are those that the edits tell.
* `Keeps`: The nodes are still there, as later edits have left them.
* `Placed.ids`: The numbers that a step hands back.

## Theorems

* `records_extend`, `records_cover`: The two edits keep `Records`.
* `records_of_edit`: So does every list of edits.
* `Records.keeps`: What lies between two points.
* `ids_result`: A step hands back numbers of nodes that it has added.
* `modifiers_of_mem_recipeEdits`: Only single additions have modifiers.
* `keeps_finish`, `Keeps.exists_node`: What lies between a point of a recipe and the finished
  file, and where to find it there.
* `nothing_added_is_lost`: The nodes of a finished file.
-/

namespace TreeQuery

/-- The form and the modifiers of the node that an edit adds. -/
def Edit.addition? : Edit → Option (Form × ModifierFlags)
  | .add form modifiers => some (form, modifiers)
  | .cover .. => none

/-- The range that an edit gives to the node with a certain number. -/
def Edit.rangeOf? (id : NodeId) : Edit → Option Range
  | .add .. => none
  | .cover other range => if other = id then some range else none

/-- The forms and the modifiers of the nodes that a list of edits adds, in their order. -/
def additions (edits : List Edit) : List (Form × ModifierFlags) :=
  edits.filterMap Edit.addition?

/-- The range that is set last for the node with a certain number. -/
def lastRange? (id : NodeId) (edits : List Edit) : Option Range :=
  (edits.filterMap (Edit.rangeOf? id)).getLast?

/-- The cells are those that the edits tell. -/
structure Records (edits : List Edit) (cells : Array Cell) : Prop where
  /-- There is one cell for each addition. -/
  size_eq : cells.size = (additions edits).length
  /-- Each cell has the form and the modifiers of its addition. -/
  addition_eq : ∀ (id : NodeId) (cell : Cell), cells[id]? = some cell →
    (additions edits)[id]? = some (cell.form, cell.modifiers)
  /-- Each cell has the range that was set last for it. -/
  range_eq : ∀ (id : NodeId) (cell : Cell), cells[id]? = some cell →
    cell.range = (lastRange? id edits).getD {}
  /-- No range was set for a cell that is not there. -/
  lastRange?_eq_none : ∀ id, cells.size ≤ id → lastRange? id edits = none

/-- The nodes of the first list are in the second under the same numbers, as edits in between have
    left them: with the same form and modifiers, and with another range only if one was set. -/
def Keeps (edits : List Edit) (cells later : Array Cell) : Prop :=
  ∀ (id : NodeId) (cell : Cell), cells[id]? = some cell → ∃ kept, later[id]? = some kept ∧
    kept.form = cell.form ∧ kept.modifiers = cell.modifiers ∧
      kept.range = (lastRange? id edits).getD cell.range

/-- The numbers of nodes in what a step hands back. -/
def Placed.ids : Placed → List NodeId
  | .nothing => []
  | .node id => [id]
  | .declared statement declaration => [statement, declaration]

theorem additions_append (first second : List Edit) :
    additions (first ++ second) = additions first ++ additions second :=
  List.filterMap_append

theorem length_additions (edits : List Edit) : (additions edits).length = added edits := by
  induction edits with
  | nil => rfl
  | cons edit rest ih =>
      cases edit with
      | add form modifiers => exact congrArg (· + 1) ih
      | cover id range => exact ih

-- Of two lists of edits the second has the last word.
theorem lastRange?_append (id : NodeId) (first second : List Edit) :
    lastRange? id (first ++ second) = (lastRange? id second).or (lastRange? id first) := by
  rw [lastRange?, List.filterMap_append, List.getLast?_append]
  rfl

theorem lastRange?_add (id : NodeId) (edits : List Edit) (form : Form)
    (modifiers : ModifierFlags) :
    lastRange? id (edits ++ [.add form modifiers]) = lastRange? id edits :=
  lastRange?_append id edits _

theorem lastRange?_cover (id : NodeId) (edits : List Edit) (other : NodeId) (range : Range) :
    lastRange? id (edits ++ [.cover other range]) =
      if other = id then some range else lastRange? id edits := by
  rw [lastRange?_append, lastRange?, List.filterMap_cons, Edit.rangeOf?]
  by_cases hother : other = id
  · rw [if_pos hother, if_pos hother]
    rfl
  · rw [if_neg hother, if_neg hother]
    rfl

theorem records_empty : Records [] ({} : Draft).cells := by
  have hnone : ∀ (id : NodeId) (cell : Cell), ({} : Draft).cells[id]? ≠ some cell := by simp
  exact ⟨rfl, fun id cell h => absurd h (hnone id cell), fun id cell h => absurd h (hnone id cell),
    fun _ _ => rfl⟩

-- A cell behind an addition is the new one or was there before. Where only the link to its parent
-- was rewritten, the rest is the same.
theorem cell_of_extend (draft : Draft) (form : Form) (modifiers : ModifierFlags) (id : NodeId)
    (cell : Cell) (h : (draft.extend form modifiers).cells[id]? = some cell) :
    (id = draft.size ∧ cell = ⟨form, modifiers, none, {}⟩) ∨
      ∃ before, draft.cells[id]? = some before ∧ cell.form = before.form ∧
        cell.modifiers = before.modifiers ∧ cell.range = before.range := by
  rw [Draft.getElem?_extend] at h
  by_cases hid : id = draft.size
  · rw [if_pos hid, Option.some.injEq] at h
    exact Or.inl ⟨hid, h.symm⟩
  · rw [if_neg hid] at h
    rcases Option.map_eq_some_iff.mp h with ⟨before, hbefore, rfl⟩
    refine Or.inr ⟨before, hbefore, ?_⟩
    by_cases hadopted : id ∈ form.children
    · rw [if_pos hadopted]
      exact ⟨rfl, rfl, rfl⟩
    · rw [if_neg hadopted]
      exact ⟨rfl, rfl, rfl⟩

/-- An addition is told at the end, and rewrites nothing that is told. -/
theorem records_extend {edits : List Edit} (draft : Draft) (form : Form)
    (modifiers : ModifierFlags) (h : Records edits draft.cells) :
    Records (edits ++ [.add form modifiers]) (draft.extend form modifiers).cells := by
  have hadditions : additions (edits ++ [.add form modifiers]) =
      additions edits ++ [(form, modifiers)] := additions_append edits _
  have hsize : (draft.extend form modifiers).cells.size = draft.cells.size + 1 :=
    Draft.size_extend ..
  have hnew : draft.size = (additions edits).length := h.size_eq
  refine ⟨?_, fun id cell hget => ?_, fun id cell hget => ?_, fun id hid => ?_⟩
  · rw [hsize, hadditions, List.length_append, h.size_eq]
    rfl
  · rw [hadditions]
    rcases cell_of_extend draft form modifiers id cell hget with
      ⟨rfl, rfl⟩ | ⟨before, hbefore, hform, hmodifiers, _⟩
    · rw [hnew, List.getElem?_concat_length]
    · rw [hform, hmodifiers]
      have hold := h.addition_eq id before hbefore
      rw [List.getElem?_append_left (List.getElem?_eq_some_iff.mp hold).1, hold]
  · rw [lastRange?_add]
    rcases cell_of_extend draft form modifiers id cell hget with
      ⟨rfl, rfl⟩ | ⟨before, hbefore, _, _, hsame⟩
    · rw [h.lastRange?_eq_none draft.size (Nat.le_refl _)]
      rfl
    · rw [hsame]
      exact h.range_eq id before hbefore
  · rw [lastRange?_add]
    rw [hsize] at hid
    exact h.lastRange?_eq_none id (Nat.le_of_succ_le hid)

/-- A range that is set is told from then on, and nothing else is. -/
theorem records_cover {edits : List Edit} (draft : Draft) (id : NodeId) (range : Range)
    (hid : id < draft.size) (h : Records edits draft.cells) :
    Records (edits ++ [.cover id range]) (draft.cover id range).cells := by
  have hadditions : additions (edits ++ [.cover id range]) = additions edits := by
    rw [additions_append]
    exact List.append_nil _
  have hsize : (draft.cover id range).cells.size = draft.cells.size := Draft.size_cover ..
  refine ⟨?_, fun other cell hget => ?_, fun other cell hget => ?_, fun other hother => ?_⟩
  · rw [hsize, hadditions, h.size_eq]
  · rw [hadditions]
    rw [Draft.getElem?_cover] at hget
    rcases Option.map_eq_some_iff.mp hget with ⟨before, hbefore, rfl⟩
    rw [h.addition_eq other before hbefore]
    by_cases hother : other = id
    · rw [if_pos hother]
    · rw [if_neg hother]
  · rw [lastRange?_cover]
    rw [Draft.getElem?_cover] at hget
    rcases Option.map_eq_some_iff.mp hget with ⟨before, hbefore, rfl⟩
    by_cases hother : other = id
    · rw [if_pos hother, if_pos hother.symm]
      rfl
    · rw [if_neg hother, if_neg (Ne.symm hother)]
      exact h.range_eq other before hbefore
  · rw [hsize] at hother
    have hne : id ≠ other := fun heq => Nat.not_lt_of_le hother (heq ▸ hid)
    rw [lastRange?_cover, if_neg hne]
    exact h.lastRange?_eq_none other hother

/-- The cells are those that the edits tell, after any number of them. -/
theorem records_of_edit (edits : List Edit) (earlier : List Edit) (draft next : Draft)
    (hedit : draft.edit edits = .ok next) (h : Records earlier draft.cells) :
    Records (earlier ++ edits) next.cells := by
  induction edits generalizing earlier draft with
  | nil =>
      rw [edit_nil, Except.ok.injEq] at hedit
      rwa [List.append_nil, ← hedit]
  | cons edit rest ih =>
      rcases (edit_cons_eq_ok_iff ..).mp hedit with ⟨middle, hrun, hrest⟩
      rw [List.append_cons]
      refine ih (earlier ++ [edit]) middle hrest ?_
      cases edit with
      | add form modifiers =>
          rcases (edit_add_eq_ok_iff ..).mp hrun with ⟨_, rfl⟩
          exact records_extend draft form modifiers h
      | cover id range =>
          rcases (edit_cover_eq_ok_iff ..).mp hrun with ⟨hid, rfl⟩
          exact records_cover draft id range hid h

/-- Between two points the nodes that are there at the first are kept. -/
theorem Records.keeps {edits further : List Edit} {cells later : Array Cell}
    (h : Records edits cells) (hlater : Records (edits ++ further) later) :
    Keeps further cells later := by
  intro id cell hget
  have hold := h.addition_eq id cell hget
  have hthere := (List.getElem?_eq_some_iff.mp hold).1
  have hin : id < later.size := by
    rw [hlater.size_eq, additions_append, List.length_append]
    exact Nat.lt_of_lt_of_le hthere (Nat.le_add_right ..)
  have hkept := Array.getElem?_eq_getElem hin
  have hnew := hlater.addition_eq id _ hkept
  rw [additions_append, List.getElem?_append_left hthere, hold, Option.some.injEq,
    Prod.mk.injEq] at hnew
  refine ⟨_, hkept, hnew.1.symm, hnew.2.symm, ?_⟩
  rw [hlater.range_eq id _ hkept, h.range_eq id cell hget, lastRange?_append]
  cases lastRange? id further <;> rfl

theorem added_append (first second : List Edit) :
    added (first ++ second) = added first + added second := by
  rw [← length_additions, additions_append, List.length_append, length_additions,
    length_additions]

/-- What a step hands back are the numbers of nodes that it has added. -/
theorem ids_result (step : Step) (size : Nat) :
    ∀ id : Nat, id ∈ (step.result size).ids →
      size ≤ id ∧ id < size + added (step.edits size) := by
  cases step <;>
    simp only [Step.result, Step.edits, Placed.ids, added, added_append, added_wrappedEdits,
      List.mem_cons, List.not_mem_nil, or_false, forall_eq_or_imp, forall_eq, false_implies,
      implies_true] <;> omega

-- A recipe that begins with a step goes on where the step has ended.
theorem run_cons_of_edit {step : Step} {draft next : Draft} (rest : List Step)
    (h : draft.edit (step.edits draft.size) = .ok next) :
    draft.run (step :: rest) =
      ⟨step.result draft.size :: (next.run rest).placed, (next.run rest).outcome⟩ := by
  rw [Draft.run, step_run_eq_edit step draft.size draft rfl, h]
  rfl

-- A recipe with one more call at its end.
theorem run_concat {before : List Step} {step : Step} {draft reached next : Draft}
    (hbefore : (draft.run before).outcome = .ok reached)
    (hnext : reached.edit (step.edits reached.size) = .ok next) :
    (draft.run (before ++ [step])).outcome = .ok next := by
  rw [run_append_eq_ok_iff]
  exact ⟨reached, hbefore, congrArg Run.outcome (run_cons_of_edit [] hnext)⟩

theorem exists_edit_of_run_cons {step : Step} {rest : List Step} {draft last : Draft}
    (h : (draft.run (step :: rest)).outcome = .ok last) :
    ∃ next, draft.edit (step.edits draft.size) = .ok next ∧ (next.run rest).outcome = .ok last := by
  rw [Draft.run, step_run_eq_edit step draft.size draft rfl] at h
  cases hstep : draft.edit (step.edits draft.size) with
  | error missing =>
      rw [hstep] at h
      exact absurd h (by simp [Functor.map, Except.map])
  | ok next =>
      rw [hstep] at h
      exact ⟨next, rfl, h⟩

-- What the first part of a recipe hands back comes first.
theorem placed_run_append (first second : List Step) (draft middle : Draft)
    (h : (draft.run first).outcome = .ok middle) :
    (draft.run (first ++ second)).placed =
      (draft.run first).placed ++ (middle.run second).placed := by
  induction first generalizing draft with
  | nil =>
      rw [Draft.run, Except.ok.injEq] at h
      rw [h]
      rfl
  | cons step rest ih =>
      rcases exists_edit_of_run_cons h with ⟨next, hstep, hrest⟩
      rw [List.cons_append, run_cons_of_edit _ hstep, run_cons_of_edit _ hstep, ih next hrest]
      rfl

theorem modifiers_of_mem_wrappedEdits (wrap : NodeId → Form) (size : Nat) (names : List String) :
    ∀ entry ∈ additions (wrappedEdits wrap size names), entry.2 = .none := by
  induction names generalizing size with
  | nil => exact fun entry hentry => absurd hentry List.not_mem_nil
  | cons name rest ih =>
      exact List.forall_mem_cons.mpr ⟨rfl, List.forall_mem_cons.mpr ⟨rfl, ih (size + 2)⟩⟩

theorem modifiers_of_mem_around (wrap : NodeId → Form) (around : Form) (size : Nat)
    (names : List String) :
    ∀ entry ∈ additions (wrappedEdits wrap size names ++ [.add around .none]), entry.2 = .none := by
  intro entry hentry
  rw [additions_append] at hentry
  rcases List.mem_append.mp hentry with hentry | hentry
  · exact modifiers_of_mem_wrappedEdits wrap size names entry hentry
  · rw [List.mem_singleton.mp hentry]

-- Of the builders only the one for a single node has modifiers to give.
theorem modifiers_of_mem_edits (step : Step) (size : Nat) :
    ∀ entry ∈ additions (step.edits size), entry.2 = .none ∨ step = .node entry.1 entry.2 := by
  cases step with
  | node form modifiers => exact List.forall_mem_singleton.mpr (Or.inr rfl)
  | heritageClause keyword names =>
      exact fun entry hentry => Or.inl (modifiers_of_mem_around _ _ size names entry hentry)
  | arrayBindingPattern names =>
      exact fun entry hentry => Or.inl (modifiers_of_mem_around _ _ size names entry hentry)
  | _ =>
      simp only [Step.edits, additions, List.filterMap_cons, List.filterMap_nil, Edit.addition?,
        List.mem_cons, List.not_mem_nil, or_false, forall_eq_or_imp, forall_eq, false_implies,
        implies_true, reduceCtorEq, and_self]

theorem modifiers_of_mem_recipeEdits (steps : List Step) (size : Nat) :
    ∀ entry ∈ additions (recipeEdits size steps),
      entry.2 = .none ∨ .node entry.1 entry.2 ∈ steps := by
  induction steps generalizing size with
  | nil => exact fun entry hentry => absurd hentry List.not_mem_nil
  | cons step rest ih =>
      intro entry hentry
      rw [recipeEdits, additions_append] at hentry
      rcases List.mem_append.mp hentry with hentry | hentry
      · refine (modifiers_of_mem_edits step size entry hentry).imp_right fun hstep => ?_
        rw [hstep]
        exact List.mem_cons_self
      · exact (ih _ entry hentry).imp_right (List.mem_cons_of_mem step)

/-- The cells of a draft that a recipe leads to are those that its edits tell. -/
theorem records_of_run (steps : List Step) (draft : Draft)
    (h : (({} : Draft).run steps).outcome = .ok draft) :
    Records (recipeEdits 0 steps) draft.cells := by
  rw [run_eq_edit] at h
  exact records_of_edit _ [] {} draft h records_empty

-- What a recipe has made by some point is in the file that it is finished to.
theorem keeps_finish (steps later : List Step) (reached draft : Draft) (name : String)
    (statements : List NodeId) (file : SourceFile)
    (hreached : (({} : Draft).run steps).outcome = .ok reached)
    (hlater : (reached.run later).outcome = .ok draft)
    (hfinish : draft.finish name statements = .ok file) :
    Keeps (recipeEdits reached.size later) reached.cells file.cells := by
  rcases (finish_eq_ok_iff ..).mp hfinish with ⟨_, rfl⟩
  rw [run_eq_edit] at hlater
  have hbefore := records_of_run steps reached hreached
  have hdraft := records_of_edit _ _ reached draft hlater hbefore
  -- The program is added last and sets no range.
  have hkeeps := hbefore.keeps
    (List.append_assoc .. ▸ records_extend draft (.sourceFile statements) .none hdraft)
  simp only [Keeps, lastRange?_add] at hkeeps
  exact hkeeps

-- A node that is kept in a file is found there with the form that it had.
theorem Keeps.exists_node {edits : List Edit} {cells : Array Cell} {file : SourceFile}
    (h : Keeps edits cells file.cells) {id : NodeId} {cell : Cell}
    (hcell : cells[id]? = some cell) : ∃ node, file.node id = .ok node ∧ node.form = cell.form := by
  rcases h id cell hcell with ⟨kept, hkept, hform, _⟩
  rcases exists_node_of_cell hkept with ⟨node, hnode, rfl⟩
  exact ⟨node, hnode, hform⟩

/-- Nothing that a recipe adds is lost or altered. The file has one node for each addition and one
    for the program, and each has the form and the modifiers that it was added with, and the range
    that was set for it last. Modifiers come from the single additions of the recipe only. A step
    hands back nodes that it has added, and what it leaves of the earlier nodes, and later steps of
    those that are there by then, is everything but the ranges that are set. -/
theorem nothing_added_is_lost (steps : List Step) (draft : Draft) (name : String)
    (statements : List NodeId) (file : SourceFile)
    (hrun : (({} : Draft).run steps).outcome = .ok draft)
    (hfinish : draft.finish name statements = .ok file) :
    ({} : Draft).edit (recipeEdits 0 steps) = .ok draft ∧
    file.size = (additions (recipeEdits 0 steps)).length + 1 ∧ file.root + 1 = file.size ∧
    Records (recipeEdits 0 steps ++ [.add (.sourceFile statements) .none]) file.cells ∧
    (∀ form modifiers, (form, modifiers) ∈ additions (recipeEdits 0 steps) →
      modifiers = .none ∨ .node form modifiers ∈ steps) ∧
    ∀ taken step rest, steps = taken ++ step :: rest → ∃ reached next result,
      (({} : Draft).run taken).outcome = .ok reached ∧
      (({} : Draft).run (taken ++ [step])).outcome = .ok next ∧
      (({} : Draft).run (taken ++ [step])).placed =
        (({} : Draft).run taken).placed ++ [result] ∧
      (∀ id : Nat, id ∈ result.ids → reached.size ≤ id ∧ id < next.size) ∧
      Keeps (step.edits reached.size) reached.cells next.cells ∧
      Keeps (recipeEdits next.size rest) next.cells file.cells := by
  have hrecords := records_of_run steps draft hrun
  rcases (finish_eq_ok_iff ..).mp hfinish with ⟨_, rfl⟩
  have hfile := records_extend draft (.sourceFile statements) .none hrecords
  have hsize : draft.size = (additions (recipeEdits 0 steps)).length := hrecords.size_eq
  have hadded : SourceFile.size ⟨name, (draft.extend (.sourceFile statements) .none).cells,
      draft.size, 0⟩ = draft.size + 1 := Draft.size_extend ..
  refine ⟨?_, ?_, hadded.symm, hfile, fun form modifiers hmem =>
    modifiers_of_mem_recipeEdits steps 0 (form, modifiers) hmem, ?_⟩
  · rw [← hrun]
    exact (run_eq_edit steps {}).symm
  · rw [hadded, hsize]
  · rintro taken step rest rfl
    rcases (run_append_eq_ok_iff ..).mp hrun with ⟨reached, hreached, hrest⟩
    rcases exists_edit_of_run_cons hrest with ⟨next, hstep, hlast⟩
    have hone := run_cons_of_edit [] hstep
    have hnext := run_concat hreached hstep
    have hbefore := records_of_run taken reached hreached
    have hafter := records_of_edit _ _ reached next hstep hbefore
    refine ⟨reached, next, step.result reached.size, hreached, hnext, ?_, ?_,
      hbefore.keeps hafter, ?_⟩
    · rw [placed_run_append taken [step] {} reached hreached, hone]
      rfl
    · rw [size_of_edit _ reached next hstep]
      exact ids_result step reached.size
    · exact keeps_finish _ rest next draft name statements _ hnext hlast hfinish

/-- A name whose range is set twice, the second time after another node has taken it over, is what
    it was when it was added, and has the later range. -/
theorem nothing_added_is_lost_rewritten :
    ∃ draft file, (({} : Draft).run [.identifier "f", .range 0 ⟨1, 2⟩,
        .node (.block []) ModifierFlags.exported, .propertyAccess 0 "g", .range 0 ⟨3, 4⟩,
        .call 0 [0]]).outcome = .ok draft ∧ draft.finish "a.ts" [1] = .ok file ∧
      file.size = 6 ∧ file.cells[0]? = some ⟨.identifier "f", .none, some 4, ⟨3, 4⟩⟩ ∧
      ∀ cell, file.cells[1]? = some cell → cell.modifiers = ModifierFlags.exported := by
  have hrun : (({} : Draft).run [.identifier "f", .range 0 ⟨1, 2⟩,
      .node (.block []) ModifierFlags.exported, .propertyAccess 0 "g", .range 0 ⟨3, 4⟩,
      .call 0 [0]]).outcome =
        .ok ⟨#[⟨.identifier "f", .none, some 4, ⟨3, 4⟩⟩,
          ⟨.block [], ModifierFlags.exported, none, {}⟩, ⟨.identifier "g", .none, some 3, {}⟩,
          ⟨.propertyAccessExpression 0 2, .none, none, {}⟩,
          ⟨.callExpression 0 [0], .none, none, {}⟩]⟩ := rfl
  rcases nothing_added_is_lost _ _ "a.ts" [1] _ hrun rfl with ⟨_, hsize, _, hrecords, _⟩
  refine ⟨_, _, hrun, rfl, hsize, rfl, fun cell hcell => ?_⟩
  exact (Prod.mk.inj (Option.some.inj (hrecords.addition_eq 1 cell hcell))).2.symm

end TreeQuery
