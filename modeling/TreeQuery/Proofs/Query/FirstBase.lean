import TreeQuery.Proofs.Query.BaseType
import TreeQuery.Proofs.Tree.Ancestors
import TreeQuery.Proofs.Tree.Calls

/-!
# The base that is written first

A class is written in several calls. Each of its clauses is a call that adds two nodes for
every name and then the clause, and a last call adds the class with its clauses in order.
Other calls may come before, in between and behind. What the base of the class is can be
said in terms of these calls alone: of the first clause that is an `extends` clause, and of
the first name in it.

The node that is found is the one that wraps this name. Its parent is its clause and the
parent of the clause is the class, as long as no other call refers to the nodes of the
clauses: a reference would be a second node that names them. An `extends` clause without
names ends the search, so clauses behind it do not count.

The type of the base is then asked for at this node and nowhere else.

## Main definitions

* `WrittenClause`: A clause as it was written.
* `WrittenClause.Has`: The nodes of a clause.
* `WritesClass`: A recipe writes a class with certain clauses.
* `ReadsTypeAt`: The type of a base is asked for at one node.

## Theorems

* `readsTypeAt`: The type is asked for where the base is named.
* `findSome?_extended?`, `baseExpression_of_clauses`: The search through the clauses of a class.
* `exists_clause`, `exists_class`: The nodes of clauses and classes in the file.
* `names_type_iff`, `names_clause_iff`: Who names the first type of a clause, and the clause.
* `base_is_written_first`: The base of a class, from what was written.
-/

namespace TreeQuery

/-- A heritage clause as it was written, with the node that its builder has handed back. -/
structure WrittenClause where
  keyword : Kind
  names : List String
  id : NodeId

namespace WrittenClause

/-- The call that writes the clause. -/
def step (clause : WrittenClause) : Step :=
  .heritageClause clause.keyword clause.names

/-- The nodes of a clause: two for each name, and the clause itself. -/
def Has (clause : WrittenClause) (node : NodeId) : Prop :=
  node ≤ clause.id ∧ clause.id ≤ node + 2 * clause.names.length

theorem has_id (clause : WrittenClause) : clause.Has clause.id :=
  ⟨Nat.le_refl _, Nat.le_add_right ..⟩

/-- The number of the first of these nodes. -/
def start (clause : WrittenClause) : NodeId :=
  clause.id - 2 * clause.names.length

/-- The node that wraps the first name of the clause. -/
def base? (clause : WrittenClause) : Option NodeId :=
  clause.names.head?.map fun _ => clause.start + 1

end WrittenClause

/-- The recipe writes a class with these clauses in this order. No other call refers to a node of
    the clauses, nor does the program. -/
structure WritesClass (steps : List Step) (statements : List NodeId)
    (clauses : List WrittenClause) (place : Nat) (name : String) (id : NodeId) : Prop where
  clause_written : ∀ clause ∈ clauses, ∃ place, HandsBack steps place clause.step clause.id
  class_written : HandsBack steps place (.classDeclaration name (clauses.map (·.id))) id
  not_referenced : ∀ clause ∈ clauses, ∀ node, clause.Has node → ∀ other step, other ≠ place →
    steps[other]? = some step → node ∉ step.references
  not_statement : ∀ clause ∈ clauses, ∀ node, clause.Has node → node ∉ statements

/-- The type that a class inherits from is asked for at the node, and nothing else is asked of a
    checker but the name of that type. The directives of the type decide what is inherited, and an
    error in them is placed at the node. -/
structure ReadsTypeAt (declaration base : Node) : Prop where
  of_no_type : ∀ checker : Checker, checker.typeAt base = none →
    checker.baseType declaration = pure none
  of_pureAbstract : ∀ (checker : Checker) type set, checker.typeAt base = some type →
    type.directives.value = .ok set → .pureAbstract ∈ set.kinds →
      (checker.baseType declaration).answer = .ok none
  of_other : ∀ (checker : Checker) type set, checker.typeAt base = some type →
    type.directives.value = .ok set → .pureAbstract ∉ set.kinds →
      (checker.baseType declaration).answer = .ok (some type)
  of_error : ∀ (checker : Checker) type cause, checker.typeAt base = some type →
    type.directives.value = .error cause → (checker.baseType declaration).answer =
      .error (.directive ⟨base.kind, base.file.name, base.range, cause⟩)
  alike : ∀ checker other : Checker, checker.typeAt base = other.typeAt base →
    (∀ type, checker.typeAt base = some type → checker.nameOf type = other.nameOf type) →
      checker.baseType declaration = other.baseType declaration

theorem readsTypeAt {declaration base : Node} (h : declaration.baseExpression = .ok (some base)) :
    ReadsTypeAt declaration base := by
  have hanswer : ∀ (checker : Checker) type, checker.typeAt base = some type →
      (checker.baseType declaration).answer =
        type.inherited <$> (Query.ofReading base type.directives).answer := by
    intro checker type htype
    rw [checker.answer_baseType h htype, Checker.directivesAt_of_type htype]
  refine ⟨fun checker htype => ?_, fun checker type set htype hread hpure => ?_,
    fun checker type set htype hread hother => ?_, fun checker type cause htype hread => ?_,
    fun checker other htype hname => ?_⟩
  · exact checker.baseType_of_no_type h htype
  · rw [hanswer checker type htype, Query.answer_ofReading_of_ok base hread,
      ← type.inherited_of_mem hpure]
    rfl
  · rw [hanswer checker type htype, Query.answer_ofReading_of_ok base hread,
      ← type.inherited_of_not_mem hother]
    rfl
  · rw [hanswer checker type htype, Query.answer_ofReading_of_error base hread]
    rfl
  · cases hsome : checker.typeAt base with
    | none =>
        have hother : other.typeAt base = none := htype.symm.trans hsome
        rw [checker.baseType_of_no_type h hsome, other.baseType_of_no_type h hother]
    | some type =>
        have hother : other.typeAt base = some type := htype.symm.trans hsome
        rw [checker.baseType_of_type h hsome, other.baseType_of_type h hother,
          Checker.directivesAt_of_type hsome, Checker.directivesAt_of_type hother]
        simp only [Checker.partingMessages, Checker.pureAbstractMessage, hname type hsome]

theorem extended?_heritageClause (keyword : Kind) (types : List NodeId) :
    (Form.heritageClause keyword types).extended? =
      if keyword = .extendsKeyword then some types.head? else none := by
  by_cases hkeyword : keyword = .extendsKeyword
  · rw [if_pos hkeyword, hkeyword]
    rfl
  · rw [if_neg hkeyword, Form.extended?]
    intro types hform
    exact hkeyword (Form.heritageClause.inj hform).1

-- The first of the wrappers wraps the first of the names, if there is one.
theorem head?_wrappers (size : Nat) (names : List String) :
    (wrappers size names.length).head? = names.head?.map fun _ => size + 1 := by
  cases names with
  | nil => rfl
  | cons name rest => rw [List.length_cons, wrappers_succ]; rfl

/-- The search through the clauses of a class stops at the first that is an `extends` clause, with
    or without a name. -/
theorem findSome?_extended? {clauses : List WrittenClause} {nodes : List Node}
    (hids : nodes.map Node.id = clauses.map (·.id))
    (hforms : ∀ node ∈ nodes, ∀ clause ∈ clauses, node.id = clause.id →
      node.form = .heritageClause clause.keyword (wrappers clause.start clause.names.length)) :
    (nodes.findSome? fun node => node.form.extended?) =
      (clauses.find? (·.keyword = .extendsKeyword)).map WrittenClause.base? := by
  induction clauses generalizing nodes with
  | nil =>
      rw [List.map_eq_nil_iff.mp hids]
      rfl
  | cons clause rest ih =>
      cases nodes with
      | nil => exact absurd hids (by simp)
      | cons node others =>
          rw [List.map_cons, List.map_cons, List.cons.injEq] at hids
          have hform := hforms node List.mem_cons_self clause List.mem_cons_self hids.1
          rw [List.findSome?_cons, List.find?_cons, hform, extended?_heritageClause]
          by_cases hkeyword : clause.keyword = .extendsKeyword
          · rw [if_pos hkeyword, decide_eq_true hkeyword, head?_wrappers]
            rfl
          · rw [if_neg hkeyword, decide_eq_false hkeyword]
            exact ih hids.2 fun node hnode clause hclause =>
              hforms node (List.mem_cons_of_mem _ hnode) clause (List.mem_cons_of_mem _ hclause)

-- After the call for a clause the node around the first name is named by the clause alone. The
-- nodes in between name the words, which have every second number.
theorem names_type_of_edit {keyword : Kind} {names : List String} {reached next : Draft}
    (hlinked : Linked reached.cells)
    (h : reached.edit ((Step.heritageClause keyword names).edits reached.size) = .ok next)
    (hnames : names ≠ []) (parent : NodeId) :
    Names next.cells parent (reached.size + 1) ↔ parent = reached.size + 2 * names.length := by
  rw [Step.edits, edit_append, bind_eq_ok_iff] at h
  rcases h with ⟨middle, hwrapped, hlast⟩
  rcases (edit_cons_eq_ok_iff ..).mp hlast with ⟨last, hadd, hdone⟩
  rw [edit_nil, Except.ok.injEq] at hdone
  subst hdone
  rcases (edit_add_eq_ok_iff ..).mp hadd with ⟨_, rfl⟩
  have hbefore : ¬ Names middle.cells parent (reached.size + 1) := by
    have hslot : reached.size + 1 ∉
        slots (wrappedEdits .expressionWithTypeArguments reached.size names) := by
      intro hslot
      rcases mem_slots_wrappedEdits (fun _ => rfl) hslot with ⟨place, hplace⟩
      omega
    rw [names_edit_of_not_mem_slots _ reached middle hwrapped hslot]
    exact hlinked.not_names_of_size_le (Nat.le_add_right reached.size 2) parent
  have hfirst : reached.size + 1 ∈ wrappers reached.size names.length :=
    List.mem_map.mpr ⟨0, List.mem_range.mpr (List.length_pos_iff.mpr hnames), rfl⟩
  rw [names_extend, size_of_edit _ reached middle hwrapped, added_wrappedEdits]
  simp only [hbefore, Form.children, hfirst, and_true, false_or]

-- The call for a class adds a word, which names nobody, and then the class.
theorem names_heritage_of_edit {name : String} {heritage : List NodeId} {reached next : Draft}
    (h : reached.edit ((Step.classDeclaration name heritage).edits reached.size) = .ok next)
    {child parent : NodeId} (hchild : child ∈ heritage)
    (hbefore : ¬ Names reached.cells parent child) :
    Names next.cells parent child ↔ parent = reached.size + 1 := by
  rcases (edit_cons_eq_ok_iff ..).mp h with ⟨named, hname, hrest⟩
  rcases (edit_cons_eq_ok_iff ..).mp hrest with ⟨last, hadd, hdone⟩
  rw [edit_nil, Except.ok.injEq] at hdone
  subst hdone
  rcases (edit_add_eq_ok_iff ..).mp hname with ⟨_, rfl⟩
  rcases (edit_add_eq_ok_iff ..).mp hadd with ⟨_, rfl⟩
  have hin : child ∈ (Form.classDeclaration (some reached.size) heritage).children :=
    List.mem_append_right _ hchild
  rw [names_extend, names_extend, Draft.size_extend]
  simp only [hbefore, Form.children, List.not_mem_nil, and_false, false_or]
  exact and_iff_left hin

-- Up to the class nobody names a clause.
theorem WritesClass.not_names_before {steps earlier later : List Step}
    {statements : List NodeId} {clauses : List WrittenClause} {place : Nat} {name : String}
    {id : NodeId} {draft middle : Draft} (h : WritesClass steps statements clauses place name id)
    (hrun : (({} : Draft).run steps).outcome = .ok draft) {clause : WrittenClause}
    (hclause : clause ∈ clauses)
    (hsplit : steps = earlier ++ .classDeclaration name (clauses.map (·.id)) :: later)
    (hposition : earlier.length = place)
    (hearlier : (({} : Draft).run earlier).outcome = .ok middle) (parent : NodeId) :
    ¬ Names middle.cells parent clause.id := by
  rcases h.clause_written clause hclause with ⟨first, hwritten⟩
  rcases hwritten.exists_drafts hrun with
    ⟨before, after, reached, next, hsteps, hplace, hbefore, hnext, _, hresult⟩
  have horder : before.length < earlier.length := by
    have hne : first ≠ place := by
      rintro rfl
      have hsame := hwritten.step_eq.symm.trans h.class_written.step_eq
      exact absurd (Option.some.inj hsame) (by
        simp only [WrittenClause.step, reduceCtorEq, not_false_eq_true])
    rw [hplace, hposition]
    exact Nat.lt_of_le_of_ne (hwritten.le_of_reference h.class_written.step_eq
      (List.mem_map_of_mem hclause) hrun) hne
  rcases exists_between (hsteps.symm.trans hsplit) horder with ⟨between, rfl, _⟩
  -- The clause is the last node that its call adds, and the calls in between leave it alone.
  have hsize : next.size = clause.id + 1 := by
    rw [size_of_edit _ reached next hnext, WrittenClause.step, Step.edits, added_append,
      added_wrappedEdits, ← Placed.node.inj hresult]
    rfl
  rw [names_run_of_not_referenced between next middle (run_after_step hbefore hnext hearlier)
    (hsize ▸ Nat.lt_succ_self _) ?_]
  · have hlinked := linked_run _ {} next (run_concat hbefore hnext) linked_empty
    exact hlinked.not_names_of_size_le (Nat.le_of_eq hsize) parent
  · intro step hstep
    rcases exists_place_before (List.mem_append_right before (List.mem_cons_of_mem _ hstep))
      (.classDeclaration name (clauses.map (·.id)) :: later) with ⟨other, hlt, hother⟩
    rw [← hsplit] at hother
    rw [hposition] at hlt
    exact h.not_referenced clause hclause _ clause.has_id other step (Nat.ne_of_lt hlt) hother

section

variable {steps : List Step} {draft : Draft} {fileName : String} {statements : List NodeId}
  {file : SourceFile} (hrun : (({} : Draft).run steps).outcome = .ok draft)
  (hfinish : draft.finish fileName statements = .ok file)

include hrun hfinish

-- The nodes of a clause that was written, in the file.
theorem exists_clause {clause : WrittenClause} {place : Nat}
    (h : HandsBack steps place clause.step clause.id) :
    clause.id = clause.start + 2 * clause.names.length ∧
      (∃ node, file.node clause.id = .ok node ∧ node.form =
        .heritageClause clause.keyword (wrappers clause.start clause.names.length)) ∧
      ∀ text rest, clause.names = text :: rest → ∃ base word,
        file.node (clause.start + 1) = .ok base ∧
          base.form = .expressionWithTypeArguments clause.start ∧
        file.node clause.start = .ok word ∧ word.form = .identifier text := by
  rcases h.exists_node hrun hfinish with ⟨size, hresult, hnodes⟩
  have hid : clause.id = size + 2 * clause.names.length := (Placed.node.inj hresult).symm
  have hstart : clause.start = size := by
    rw [WrittenClause.start, hid, Nat.add_sub_cancel]
  rw [hstart, hid]
  refine ⟨rfl, ?_, fun text rest hnames => ?_⟩
  · refine hnodes (2 * clause.names.length) _ .none ?_
    rw [WrittenClause.step, Step.edits, additions_append, List.getElem?_append_right,
      length_additions, added_wrappedEdits, Nat.sub_self]
    · rfl
    · exact Nat.le_of_eq (by rw [length_additions, added_wrappedEdits])
  · have hadditions : ∃ others, additions (clause.step.edits size) =
        (.identifier text, .none) :: (.expressionWithTypeArguments size, .none) :: others := by
      rw [WrittenClause.step, hnames]
      exact ⟨_, rfl⟩
    rcases hadditions with ⟨others, hadditions⟩
    rcases hnodes 0 (.identifier text) .none (by rw [hadditions]; rfl) with ⟨word, hword, htext⟩
    rcases hnodes 1 (.expressionWithTypeArguments size) .none (by rw [hadditions]; rfl) with
      ⟨base, hbase, hform⟩
    exact ⟨base, word, hbase, hform, hword, htext⟩

theorem exists_class {place : Nat} {name : String} {heritage : List NodeId} {id : NodeId}
    (h : HandsBack steps place (.classDeclaration name heritage) id) :
    ∃ declaration word, file.node id = .ok declaration ∧
      declaration.form = .classDeclaration (some word) heritage := by
  rcases h.exists_node hrun hfinish with ⟨size, hresult, hnodes⟩
  rcases hnodes 1 (.classDeclaration (some size) heritage) .none rfl with
    ⟨declaration, hnode, hform⟩
  rw [← Placed.node.inj hresult]
  exact ⟨declaration, size, hnode, hform⟩

variable {clauses : List WrittenClause} {place : Nat} {name : String} {id : NodeId}
  (h : WritesClass steps statements clauses place name id)

include h

-- The class refers to clauses, and the node around a name is none.
theorem start_ne_id {clause other : WrittenClause} (hclause : clause ∈ clauses)
    (hother : other ∈ clauses) (hnames : clause.names ≠ []) : clause.start + 1 ≠ other.id := by
  intro hsame
  rcases h.clause_written clause hclause with ⟨_, hwritten⟩
  rcases h.clause_written other hother with ⟨_, hwritten'⟩
  rcases List.exists_cons_of_ne_nil hnames with ⟨text, rest, hnames⟩
  rcases (exists_clause hrun hfinish hwritten).2.2 text rest hnames with ⟨base, _, hbase, hform, _⟩
  rcases (exists_clause hrun hfinish hwritten').2.1 with ⟨node, hnode, hform'⟩
  rw [← hsame, hbase, Except.ok.injEq] at hnode
  rw [← hnode, hform] at hform'
  exact absurd hform' (by simp only [reduceCtorEq, not_false_eq_true])

/-- The node around the first name of a clause is named by the clause and by no other node. -/
theorem names_type_iff {clause : WrittenClause} (hclause : clause ∈ clauses)
    (hnames : clause.names ≠ []) (parent : NodeId) :
    Names file.cells parent (clause.start + 1) ↔ parent = clause.id := by
  rcases h.clause_written clause hclause with ⟨first, hwritten⟩
  have hid := (exists_clause hrun hfinish hwritten).1
  rcases hwritten.exists_drafts hrun with
    ⟨before, after, reached, next, hsteps, hplace, hbefore, hnext, hafter, hresult⟩
  have hstart : clause.start = reached.size :=
    Nat.add_right_cancel (hid.symm.trans (Placed.node.inj hresult).symm)
  have hlength := List.length_pos_iff.mpr hnames
  have hhas : clause.Has (clause.start + 1) := by
    rw [WrittenClause.Has, hid]
    exact ⟨Nat.add_le_add_left (by omega) _, Nat.add_le_add_right (Nat.le_succ _) _⟩
  have hthere : clause.start + 1 < next.size := by
    rw [size_of_edit _ reached next hnext, hstart, WrittenClause.step, Step.edits, added_append,
      added_wrappedEdits]
    exact Nat.add_lt_add_left (by simp only [added]; omega) _
  rw [names_finish_of_not_referenced after next draft fileName statements file hafter hfinish
    hthere ?_ (h.not_statement clause hclause _ hhas), hstart, hid, hstart]
  · exact names_type_of_edit (linked_run before {} reached hbefore linked_empty) hnext hnames parent
  · intro step hstep
    rcases exists_place_after hstep before clause.step with ⟨other, _, hother⟩
    rw [← hsteps] at hother
    by_cases hclass : other = place
    · rw [hclass, h.class_written.step_eq, Option.some.injEq] at hother
      rw [← hother, Step.references]
      intro hmem
      rcases List.mem_map.mp hmem with ⟨second, hsecond, hsame⟩
      exact start_ne_id hrun hfinish h hclause hsecond hnames hsame.symm
    · exact h.not_referenced clause hclause _ hhas other step hclass hother

/-- A clause is named by its class and by no other node. -/
theorem names_clause_iff {clause : WrittenClause} (hclause : clause ∈ clauses) (parent : NodeId) :
    Names file.cells parent clause.id ↔ parent = id := by
  rcases h.class_written.exists_drafts hrun with
    ⟨earlier, later, middle, last, hsplit, hposition, hearlier, hlast, hlater, hid⟩
  have hmem : clause.id ∈ clauses.map (·.id) := List.mem_map_of_mem hclause
  have hbefore := h.not_names_before hrun hclause hsplit hposition hearlier parent
  have hthere := lt_of_mem_slots hlast (mem_slots_of_mem_references _ _ hmem)
  rw [names_finish_of_not_referenced later last draft fileName statements file hlater hfinish
    hthere ?_ (h.not_statement clause hclause _ clause.has_id),
    names_heritage_of_edit hlast hmem hbefore, Placed.node.inj hid]
  intro step hstep
  rcases exists_place_after hstep earlier (.classDeclaration name (clauses.map (·.id))) with
    ⟨other, hlt, hother⟩
  rw [← hsplit] at hother
  rw [hposition] at hlt
  exact h.not_referenced clause hclause _ clause.has_id other step (Nat.ne_of_gt hlt) hother

-- Looking for the base goes to the first name of the first `extends` clause.
theorem baseExpression_of_clauses {declaration : Node} {word : Option NodeId}
    (hnode : file.node id = .ok declaration)
    (hform : declaration.form = .classDeclaration word (clauses.map (·.id))) :
    declaration.baseExpression =
      match (clauses.find? (·.keyword = .extendsKeyword)).map WrittenClause.base? with
      | some (some base) => some <$> file.node base
      | _ => .ok none := by
  have hclauses : ∀ clause ∈ clauses, ∃ node, file.node clause.id = .ok node ∧ node.form =
      .heritageClause clause.keyword (wrappers clause.start clause.names.length) := by
    intro clause hclause
    rcases h.clause_written clause hclause with ⟨_, hwritten⟩
    exact (exists_clause hrun hfinish hwritten).2.1
  have hthere : ∀ id ∈ clauses.map (·.id), id < file.size := by
    intro id hid
    rcases List.mem_map.mp hid with ⟨clause, hclause, rfl⟩
    rcases hclauses clause hclause with ⟨node, hnode, _⟩
    rcases (node_eq_ok_iff ..).mp hnode with ⟨rfl, hid⟩
    exact hid ▸ node.inFile
  rcases exists_nodes file _ hthere with ⟨nodes, hnodes⟩
  rcases (nodes_eq_ok_iff ..).mp hnodes with ⟨hfile, hids⟩
  have hheritage : declaration.heritageClauses = .ok nodes := by
    rw [Node.heritageClauses, hform, ((node_eq_ok_iff ..).mp hnode).1]
    exact hnodes
  have hsearch := findSome?_extended? hids fun node hmem clause hclause hid => by
    rcases hclauses clause hclause with ⟨other, hother, hform⟩
    have hsame := (node_eq_ok_iff ..).mpr ⟨hfile node hmem, hid⟩
    rw [hother, Except.ok.injEq] at hsame
    rw [← hsame, hform]
  rw [Node.baseExpression, hheritage]
  simp only [bind, Except.bind, hsearch, ((node_eq_ok_iff ..).mp hnode).1]
  rfl

end

/-- The base of a class is the one that is written first, whatever else is written. If no clause of
    the class is an `extends` clause, or the first one has no names, the class has no base.
    Otherwise its base is the node that wraps the first name of that clause. It stands below the
    clause, which stands below the class, and the type of the base is asked for at this node
    alone. -/
theorem base_is_written_first (steps : List Step) (draft : Draft) (fileName : String)
    (statements : List NodeId) (file : SourceFile) (clauses : List WrittenClause) (place : Nat)
    (name : String) (id : NodeId) (hrun : (({} : Draft).run steps).outcome = .ok draft)
    (hfinish : draft.finish fileName statements = .ok file)
    (h : WritesClass steps statements clauses place name id) :
    ∃ declaration, file.node id = .ok declaration ∧ declaration.kind = .classDeclaration ∧
      ((∀ first, clauses.find? (·.keyword = .extendsKeyword) = some first → first.names = []) →
        declaration.baseExpression = .ok none ∧
          ∀ checker : Checker, checker.baseType declaration = pure none) ∧
      ∀ first text rest, clauses.find? (·.keyword = .extendsKeyword) = some first →
        first.names = text :: rest → ∃ clause base word above,
          file.node first.id = .ok clause ∧ clause.kind = .heritageClause ∧
          declaration.baseExpression = .ok (some base) ∧
          base.kind = .expressionWithTypeArguments ∧ base.children = .ok [word] ∧
          word.form = .identifier text ∧ base.parent = .ok (some clause) ∧
          base.ancestors = .ok (clause :: declaration :: above) ∧ ReadsTypeAt declaration base := by
  rcases exists_class hrun hfinish h.class_written with ⟨declaration, written, hnode, hform⟩
  have hsearch := baseExpression_of_clauses hrun hfinish h hnode hform
  refine ⟨declaration, hnode, by rw [Node.kind, hform]; rfl, fun hempty => ?_,
    fun first text rest hfirst hnames => ?_⟩
  · have hnone : declaration.baseExpression = .ok none := by
      rw [hsearch]
      cases hfirst : clauses.find? (·.keyword = .extendsKeyword) with
      | none => rfl
      | some first =>
          rw [Option.map_some, WrittenClause.base?, hempty first hfirst]
          rfl
    exact ⟨hnone, fun checker => checker.baseType_of_no_type hnone rfl⟩
  · have hclause := List.mem_of_find?_eq_some hfirst
    have hne : first.names ≠ [] := hnames ▸ List.cons_ne_nil _ _
    rcases h.clause_written first hclause with ⟨_, hwritten⟩
    rcases exists_clause hrun hfinish hwritten with ⟨_, ⟨clause, hclauseNode, hclauseForm⟩, htypes⟩
    rcases htypes text rest hnames with ⟨base, word, hbase, hbaseForm, hword, htext⟩
    have hfile := ((node_eq_ok_iff ..).mp hnode).1
    have hbaseFile := ((node_eq_ok_iff ..).mp hbase).1
    have hlinked := linked_finish steps draft fileName statements file hrun hfinish
    have hparent := hlinked.parent_eq_of_names hbase hclauseNode
      (names_type_iff hrun hfinish h hclause hne)
    have habove := hlinked.parent_eq_of_names hclauseNode hnode
      (names_clause_iff hrun hfinish h hclause)
    rcases exists_ancestors declaration (hfile ▸ hlinked) with ⟨above, _, hup⟩
    have hfound : declaration.baseExpression = .ok (some base) := by
      rw [hsearch, hfirst, Option.map_some, WrittenClause.base?, hnames]
      simp only [List.head?_cons, Option.map_some, hbase]
      rfl
    refine ⟨clause, base, word, above, hclauseNode, ?_, hfound, ?_, ?_, htext, hparent, ?_,
      readsTypeAt hfound⟩
    · rw [Node.kind, hclauseForm]
      rfl
    · rw [Node.kind, hbaseForm]
      rfl
    · rcases (node_eq_ok_iff ..).mp hword with ⟨hwordFile, hwordId⟩
      rw [children_eq_ok_iff, hbaseForm]
      refine ⟨List.forall_mem_singleton.mpr (hwordFile.trans hbaseFile.symm), ?_⟩
      rw [List.map_singleton, hwordId]
      rfl
    · rw [ancestors_eq_ok_iff _ _ (hbaseFile ▸ hlinked)]
      exact .step hparent (.step habove hup)

/-- A class that implements `I` and has two `extends` clauses, of `A` and `B` and of `Z`, with
    another call in between: its base is `A`, below the first of the two. -/
theorem base_is_written_first_repeated :
    ∃ (draft : Draft) (file : SourceFile) (declaration clause base word : Node),
      (({} : Draft).run [.heritageClause .implementsKeyword ["I"],
        .heritageClause .extendsKeyword ["A", "B"], .identifier "x",
        .heritageClause .extendsKeyword ["Z"], .classDeclaration "C" [2, 7, 11]]).outcome =
          .ok draft ∧
      draft.finish "a.ts" [13] = .ok file ∧ file.node 13 = .ok declaration ∧
      file.node 7 = .ok clause ∧ declaration.baseExpression = .ok (some base) ∧
      base.children = .ok [word] ∧ word.form = .identifier "A" ∧
      base.parent = .ok (some clause) ∧ ReadsTypeAt declaration base := by
  have hwrites : WritesClass [.heritageClause .implementsKeyword ["I"],
      .heritageClause .extendsKeyword ["A", "B"], .identifier "x",
      .heritageClause .extendsKeyword ["Z"], .classDeclaration "C" [2, 7, 11]] [13]
      [⟨.implementsKeyword, ["I"], 2⟩, ⟨.extendsKeyword, ["A", "B"], 7⟩,
        ⟨.extendsKeyword, ["Z"], 11⟩] 4 "C" 13 := by
    refine ⟨?_, ⟨rfl, rfl⟩, ?_, ?_⟩
    · simp only [List.forall_mem_cons, List.not_mem_nil, false_implies, implies_true, and_true]
      exact ⟨⟨0, rfl, rfl⟩, ⟨1, rfl, rfl⟩, ⟨3, rfl, rfl⟩⟩
    · rintro clause _ node _ (_ | _ | _ | _ | _ | other) step hother hstep
      · cases hstep; exact List.not_mem_nil
      · cases hstep; exact List.not_mem_nil
      · cases hstep; exact List.not_mem_nil
      · cases hstep; exact List.not_mem_nil
      · exact absurd rfl hother
      · exact absurd hstep (by simp)
    · have hids : ∀ clause ∈ [(⟨.implementsKeyword, ["I"], 2⟩ : WrittenClause),
          ⟨.extendsKeyword, ["A", "B"], 7⟩, ⟨.extendsKeyword, ["Z"], 11⟩], clause.id < 13 := by
        decide
      intro clause hclause node hhas hnode
      rw [List.mem_singleton.mp hnode] at hhas
      exact Nat.not_lt_of_ge hhas.1 (hids clause hclause)
  rcases base_is_written_first _ _ "a.ts" [13] _ _ 4 "C" 13 rfl rfl hwrites with
    ⟨declaration, hnode, _, _, hbase⟩
  rcases hbase ⟨.extendsKeyword, ["A", "B"], 7⟩ "A" ["B"] rfl rfl with
    ⟨clause, base, word, _, hclause, _, hfound, _, hchildren, hword, hparent, _, hreads⟩
  exact ⟨_, _, declaration, clause, base, word, rfl, rfl, hnode, hclause, hfound, hchildren, hword,
    hparent, hreads⟩

end TreeQuery
