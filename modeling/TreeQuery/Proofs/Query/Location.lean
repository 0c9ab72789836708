import TreeQuery.Proofs.Query.BaseType
import TreeQuery.Proofs.Tree.Ancestors
import TreeQuery.Query.TupleReturn

/-!
# Where a wrong directive is reported

Three queries read directives at a place that they first have to find: the callee of a
call, the nearest function declaration above a node, and the place where a class names
its base. `Blames` says that such a query fails over the directives at its place, and
over nothing else, and that the error bears the place and not the node that the query
was asked about.

Nothing else can fail in a file that a recipe made, because every walk there ends
inside the file. So each query is told by two cases. It finds no place and answers, or
it finds one and answers unless the directives there are wrong.

## Main definitions

* `CalleeOf`: The callee of a call.
* `Blames`: A query fails over the directives at its place, and over nothing else.
* `ReadsAt`: An answer depends on whether the directives at a place are wrong.

## Theorems

* `blames_of_readsAt`, `blames_of_no_place`: The two cases of a query.
* `exists_baseExpression`: Looking for the base of a class ends.
* `readsAt_hasDirectiveAt`, `readsAt_baseType`: What the queries do at their place.
* `CalleeOf.iff_eq`, `exists_callee_iff`: Calls are the nodes with a callee, and each has
  one.
* `isTupleReturnCall_of_callee`, `isTupleReturnCall_of_no_callee`: A call, and another node.
* `blames_isTupleReturnCall`, `blames_isInTupleReturn`, `blames_baseType`: One query
  at a time.
* `wrong_directives_are_located`: The three queries.
-/

namespace TreeQuery

/-- The second node is the callee of the first, which is a call. -/
def CalleeOf (node callee : Node) : Prop :=
  ∃ id arguments, node.form = .callExpression id arguments ∧ node.file.node id = .ok callee

/-- A query fails over the directives at the place that it looks at, and over nothing else. -/
structure Blames (checker : Checker) (place : Node → Prop) (answer : Except QueryError α) :
    Prop where
  /-- There is at most one place to look at. -/
  unique : ∀ left right, place left → place right → left = right
  /-- The query fails exactly if the type at the place has a symbol, and a line of its documentation
      that is marked as a directive declares none. -/
  fails_iff : (∃ error, answer = .error error) ↔
    ∃ target type symbol, place target ∧ checker.typeAt target = some type ∧
      type.symbol = some symbol ∧
        ∃ line ∈ Directive.linesOf symbol.documentation, Directive.ofLine? line = none
  /-- The error bears the place, and what reading the directives of the type there gives. -/
  located : ∀ error, answer = .error error → ∃ target type located,
    place target ∧ checker.typeAt target = some type ∧ error = .directive located ∧
      type.directives.value = .error located.cause ∧ located.code = 100001 ∧
      located.kind = target.kind ∧ located.file = target.file.name ∧
      located.range = target.range ∧ located.diagnostic.start = target.range.start ∧
      located.diagnostic.length = target.range.stop - target.range.start

/-- The answer is the error over the directives at the place if they are wrong, and is there
    otherwise. -/
def ReadsAt (checker : Checker) (target : Node) (answer : Except QueryError α) : Prop :=
  (∀ cause, checker.Faulty target cause →
    answer = .error (.directive (.placedAt target cause))) ∧
  ((∀ cause, ¬ checker.Faulty target cause) → ∃ value, answer = .ok value)

theorem blames_of_readsAt {checker : Checker} {place : Node → Prop} {target : Node}
    {answer : Except QueryError α} (hplace : ∀ other, place other ↔ other = target)
    (h : ReadsAt checker target answer) : Blames checker place answer := by
  -- An answer that is an error can only be the one over the directives.
  have hfaulty : ∀ error, answer = .error error →
      ∃ cause, checker.Faulty target cause ∧ error = .directive (.placedAt target cause) := by
    intro error herror
    by_cases hfaulty : ∃ cause, checker.Faulty target cause
    · rcases hfaulty with ⟨cause, hcause⟩
      rw [h.1 cause hcause, Except.error.injEq] at herror
      exact ⟨cause, hcause, herror.symm⟩
    · rcases h.2 (not_exists.mp hfaulty) with ⟨value, hvalue⟩
      rw [hvalue] at herror
      exact absurd herror (by simp only [reduceCtorEq, not_false_eq_true])
  refine ⟨?_, ?_, ?_⟩
  · intro left right hleft hright
    rw [(hplace left).mp hleft, (hplace right).mp hright]
  · constructor
    · intro hfails
      rcases hfails with ⟨error, herror⟩
      rcases hfaulty error herror with ⟨cause, hcause, _⟩
      rcases (checker.exists_faulty_iff target).mp ⟨cause, hcause⟩ with
        ⟨type, symbol, htype, hsymbol, hbad⟩
      exact ⟨target, type, symbol, (hplace target).mpr rfl, htype, hsymbol, hbad⟩
    · intro hbad
      rcases hbad with ⟨other, type, symbol, hother, htype, hsymbol, hbad⟩
      rw [(hplace other).mp hother] at htype
      rcases (checker.exists_faulty_iff target).mpr ⟨type, symbol, htype, hsymbol, hbad⟩ with
        ⟨cause, hcause⟩
      exact ⟨_, h.1 cause hcause⟩
  · intro error herror
    rcases hfaulty error herror with ⟨cause, ⟨type, htype, hcause⟩, rfl⟩
    exact ⟨target, type, .placedAt target cause, (hplace target).mpr rfl, htype, rfl, hcause,
      rfl, rfl, rfl, rfl, rfl, rfl⟩

-- A query that finds no place answers.
theorem blames_of_no_place {checker : Checker} {place : Node → Prop} (value : α)
    (hplace : ∀ target, ¬ place target) : Blames checker place (.ok value) := by
  refine ⟨?_, ?_, ?_⟩
  · intro left _ hleft
    exact absurd hleft (hplace left)
  · constructor
    · intro hfails
      rcases hfails with ⟨error, herror⟩
      exact absurd herror (by simp only [reduceCtorEq, not_false_eq_true])
    · intro hbad
      rcases hbad with ⟨target, _, _, htarget, _⟩
      exact absurd htarget (hplace target)
  · intro error herror
    exact absurd herror (by simp only [reduceCtorEq, not_false_eq_true])

theorem mem_children_of_extended? {form : Form} {id : NodeId}
    (h : form.extended? = some (some id)) : id ∈ form.children := by
  unfold Form.extended? at h
  split at h
  · next types =>
      rw [Option.some.injEq] at h
      exact List.mem_of_mem_head? h
  · exact absurd h (by simp only [reduceCtorEq, not_false_eq_true])

-- Looking for the place where a class names its base ends.
theorem exists_baseExpression (node : Node) (hlinked : Linked node.file.cells) :
    ∃ base, node.baseExpression = .ok base := by
  have hthere : ∀ id ∈ node.form.heritage, id < node.file.size := by
    intro id hid
    rcases hlinked.exists_child (Form.heritage_subset_children node.form hid) with
      ⟨child, hchild, _⟩
    rcases (node_eq_ok_iff ..).mp hchild with ⟨hfile, rfl⟩
    rw [← hfile]
    exact child.inFile
  rcases exists_nodes node.file node.form.heritage hthere with ⟨clauses, hclauses⟩
  simp only [Node.baseExpression, Node.heritageClauses, hclauses, bind, Except.bind]
  split
  · next id hfind =>
      -- The number stands in a clause of the class, and the clause is in the file of the class.
      rcases List.exists_of_findSome?_eq_some hfind with ⟨clause, hclause, hextended⟩
      have hfile := ((nodes_eq_ok_iff ..).mp hclauses).1 clause hclause
      rw [← hfile] at hlinked ⊢
      rcases hlinked.exists_child (mem_children_of_extended? hextended) with ⟨base, hbase, _⟩
      exact ⟨some base, (map_eq_ok_iff ..).mpr ⟨base, hbase, rfl⟩⟩
  · exact ⟨none, rfl⟩

theorem readsAt_hasDirectiveAt (checker : Checker) (target : Node) (kind : Directive.Kind) :
    ReadsAt checker target (checker.hasDirectiveAt target kind).answer := by
  constructor
  · intro cause hcause
    rw [Checker.hasDirectiveAt, Query.answer_map, Checker.answer_directivesAt_of_faulty hcause]
    rfl
  · intro hnot
    rcases Checker.exists_answer_directivesAt hnot with ⟨set, hset⟩
    refine ⟨set.has kind, ?_⟩
    rw [Checker.hasDirectiveAt, Query.answer_map, hset]
    rfl

-- Once the base is found, the directives of its type are read there.
theorem readsAt_baseType (checker : Checker) (node base : Node)
    (hbase : node.baseExpression = .ok (some base)) :
    ReadsAt checker base (checker.baseType node).answer := by
  constructor
  · intro cause hcause
    rcases hcause with ⟨type, htype, hcause⟩
    rw [checker.answer_baseType hbase htype,
      Checker.answer_directivesAt_of_faulty ⟨type, htype, hcause⟩]
    rfl
  · intro hnot
    cases htype : checker.typeAt base with
    | none =>
        rw [checker.baseType_of_no_type hbase htype]
        exact ⟨none, rfl⟩
    | some type =>
        -- Pure abstract or not, a set that was read gives an answer.
        rcases Checker.exists_answer_directivesAt hnot with ⟨set, hset⟩
        rw [checker.answer_baseType hbase htype, hset]
        exact ⟨type.inherited set, rfl⟩

-- The slot leads to one node, and the node has one form.
theorem CalleeOf.iff_eq {node callee : Node} (h : CalleeOf node callee) (other : Node) :
    CalleeOf node other ↔ other = callee := by
  rcases h with ⟨id, arguments, hform, hcallee⟩
  constructor
  · intro hother
    rcases hother with ⟨_, _, hother, hnode⟩
    rw [hform, Form.callExpression.injEq] at hother
    rw [← hother.1, hcallee, Except.ok.injEq] at hnode
    exact hnode.symm
  · rintro rfl
    exact ⟨id, arguments, hform, hcallee⟩

-- Calls are the nodes with a callee, since the slot of a call leads to a node of the file.
theorem exists_callee_iff (node : Node) (hlinked : Linked node.file.cells) :
    (∃ callee, CalleeOf node callee) ↔ node.kind = .callExpression := by
  constructor
  · intro hcallee
    rcases hcallee with ⟨callee, id, arguments, hform, _⟩
    rw [Node.kind, hform]
    rfl
  · intro hkind
    rw [Node.kind] at hkind
    cases hform : node.form with
    | callExpression id arguments =>
        have hslot : id ∈ node.form.children := by
          rw [hform]
          exact List.mem_cons_self
        rcases hlinked.exists_child hslot with ⟨callee, hcallee, _⟩
        exact ⟨callee, id, arguments, hform, hcallee⟩
    | _ =>
        rw [hform] at hkind
        simp only [Form.kind, reduceCtorEq] at hkind

theorem isTupleReturnCall_of_callee (checker : Checker) {node callee : Node}
    (h : CalleeOf node callee) :
    checker.isTupleReturnCall node = checker.hasDirectiveAt callee .tupleReturn := by
  rcases h with ⟨id, arguments, hform, hcallee⟩
  simp only [Checker.isTupleReturnCall, hform]
  exact Query.bind_walk _ hcallee

theorem isTupleReturnCall_of_no_callee (checker : Checker) {node : Node}
    (hlinked : Linked node.file.cells) (h : ∀ callee, ¬ CalleeOf node callee) :
    checker.isTupleReturnCall node = pure false := by
  rw [Checker.isTupleReturnCall]
  split
  · next id arguments hform =>
      have hkind : node.kind = .callExpression := by
        rw [Node.kind, hform]
        rfl
      rcases (exists_callee_iff node hlinked).mpr hkind with ⟨callee, hcallee⟩
      exact absurd hcallee (h callee)
  · rfl

theorem blames_isTupleReturnCall (checker : Checker) (node : Node)
    (hlinked : Linked node.file.cells) :
    Blames checker (CalleeOf node) (checker.isTupleReturnCall node).answer := by
  by_cases hcall : ∃ callee, CalleeOf node callee
  · rcases hcall with ⟨callee, hcallee⟩
    rw [isTupleReturnCall_of_callee checker hcallee]
    exact blames_of_readsAt hcallee.iff_eq (readsAt_hasDirectiveAt checker callee .tupleReturn)
  · have hno := not_exists.mp hcall
    rw [isTupleReturnCall_of_no_callee checker hlinked hno]
    exact blames_of_no_place false hno

theorem blames_isInTupleReturn (checker : Checker) (node : Node)
    (hlinked : Linked node.file.cells) :
    Blames checker (NearestAbove (·.is .functionDeclaration) node)
      (checker.isInTupleReturn node).answer := by
  rcases exists_firstAbove node (·.is .functionDeclaration) hlinked with ⟨result, hresult⟩
  have hnearest := fun target =>
    firstAbove_eq_some_iff node (·.is .functionDeclaration) target hlinked
  simp only [hresult, Except.ok.injEq] at hnearest
  rw [Checker.isInTupleReturn, Query.answer_bind_walk _ hresult]
  cases result with
  | none =>
      refine blames_of_no_place false fun target htarget => ?_
      exact absurd ((hnearest target).mpr htarget) (by simp only [reduceCtorEq, not_false_eq_true])
  | some function =>
      refine blames_of_readsAt (fun other => ?_)
        (readsAt_hasDirectiveAt checker function .tupleReturn)
      rw [← hnearest other, Option.some.injEq, eq_comm]

theorem blames_baseType (checker : Checker) (node : Node) (hlinked : Linked node.file.cells) :
    Blames checker (fun base => node.baseExpression = .ok (some base))
      (checker.baseType node).answer := by
  rcases exists_baseExpression node hlinked with ⟨result, hresult⟩
  cases result with
  | none =>
      rw [checker.baseType_of_no_type hresult rfl]
      refine blames_of_no_place none fun target htarget => ?_
      rw [hresult] at htarget
      exact absurd htarget (by simp only [Except.ok.injEq, reduceCtorEq, not_false_eq_true])
  | some base =>
      refine blames_of_readsAt (fun other => ?_) (readsAt_baseType checker node base hresult)
      rw [hresult, Except.ok.injEq, Option.some.injEq, eq_comm]

/-- In a file that a recipe made, each of the three queries fails over the directives at its place
    and over nothing else, whoever listens, and the error bears that place. -/
theorem wrong_directives_are_located (context : Context) (node : Node) (h : node.file.Built) :
    Blames context.checker (CalleeOf node)
      (context.run fun checker => checker.isTupleReturnCall node).1 ∧
    Blames context.checker (NearestAbove (·.is .functionDeclaration) node)
      (context.run fun checker => checker.isInTupleReturn node).1 ∧
    Blames context.checker (fun base => node.baseExpression = .ok (some base))
      (context.run fun checker => checker.baseType node).1 :=
  ⟨blames_isTupleReturnCall context.checker node h.linked,
    blames_isInTupleReturn context.checker node h.linked,
    blames_baseType context.checker node h.linked⟩

/-- The wanted directive comes first, and the wrong one behind it is still reported, at the base and
    not at the class. -/
theorem wrong_directives_are_located_behind :
    ∃ node : Node, node.file.Built ∧ node.kind = .classDeclaration ∧
      ∃ located, ((Context.silent (TypeTable.ofList [(1, Ty.object (Symbol.mk "A" ⟨0⟩
        [.plain "!PureAbstract\n!Abstract"] none))]).checker).run fun checker =>
          checker.baseType node).1 = .error (.directive located) ∧
        located.kind = .expressionWithTypeArguments ∧ located.range = ⟨16, 17⟩ := by
  have hbuilt : (SourceFile.mk "b.ts" #[⟨.identifier "A", .none, some 1, {}⟩,
      ⟨.expressionWithTypeArguments 0, .none, some 2, ⟨16, 17⟩⟩,
      ⟨.heritageClause .extendsKeyword [1], .none, some 4, {}⟩,
      ⟨.identifier "B", .none, some 4, {}⟩, ⟨.classDeclaration (some 3) [2], .none, some 5, {}⟩,
      ⟨.sourceFile [4], .none, none, {}⟩] 5 0).Built :=
    ⟨[.heritageClause .extendsKeyword ["A"], .range 1 ⟨16, 17⟩, .classDeclaration "B" [2]], _, [4],
      rfl, rfl⟩
  rcases (wrong_directives_are_located (.silent (TypeTable.ofList [(1, Ty.object (Symbol.mk "A" ⟨0⟩
    [.plain "!PureAbstract\n!Abstract"] none))]).checker) ⟨_, 4, by decide⟩ hbuilt).2.2 with
    ⟨hunique, hfails, hlocated⟩
  rcases hfails.mpr ⟨⟨_, 1, by decide⟩, _, _, rfl, rfl, rfl, "!Abstract", by decide +kernel,
    by decide +kernel⟩ with ⟨error, herror⟩
  rcases hlocated error herror with
    ⟨target, _, located, htarget, _, rfl, _, _, hkind, _, hrange, _⟩
  have hbase := hunique target ⟨_, 1, by decide⟩ htarget rfl
  subst hbase
  exact ⟨_, hbuilt, rfl, located, herror, hkind, hrange⟩

end TreeQuery
