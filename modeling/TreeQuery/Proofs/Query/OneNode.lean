import TreeQuery.Proofs.Query.Enclosing
import TreeQuery.Proofs.Query.Location

/-!
# Queries that look at one node

Whether several values are returned can be asked of a type, and of two nodes that lead to
one: a call leads to the type of its callee, and any node to the type of the nearest
function declaration above it. The tree alone says which node that is. Once it is found,
its type is asked and nothing else, and the only difference to asking the type directly is
that an error has a place.

So of all that a checker knows, these queries depend on a single answer. Checkers may
disagree about the call itself, about its arguments and about the functions further out,
and some of these may have wrong directives: where they agree about the one node, both the
answer and the messages are the same.

## Main definitions

* `AsksAtOne`: A query asks the type at one node at most, and depends on nothing else.

## Theorems

* `AsksTypeAt.run_of_ok`, `AsksTypeAt.run_of_error`: What a traversal gets of a query.
* `hasDirectiveAt_congr`: The question at the one node.
* `asksAtOne_of_place`, `asksAtOne_of_no_place`: The two cases of a query.
* `asksAtOne_isTupleReturnCall`, `asksAtOne_isInTupleReturn`: One query at a time.
* `tuple_returns_depend_on_one_node`: Both queries.
-/

namespace TreeQuery

/-- A query asks at one node at most, which the tree gives, whether the type there returns several
    values. What anybody hears of it does not depend on the types of other nodes. -/
structure AsksAtOne (place : Node → Prop) (ask : Checker → Query Bool) : Prop where
  /-- There is at most one node to ask. -/
  unique : ∀ left right, place left → place right → left = right
  of_place : ∀ (checker : Checker) target, place target → AsksTypeAt checker target (ask checker)
  of_no_place : (∀ target, ¬ place target) → ∀ checker, ask checker = pure false
  /-- Checkers that know the same type of the node are answered the same, with the same messages. -/
  alike : ∀ checker other : Checker,
    (∀ target, place target → checker.typeAt target = other.typeAt target) →
      ask checker = ask other
  run_alike : ∀ (checker other : Checker) (logger : Logger),
    (∀ target, place target → checker.typeAt target = other.typeAt target) →
      (Context.mk checker logger).run ask = (Context.mk other logger).run ask

/-- A traversal gets the answer of the type, and its logger keeps what it keeps of the messages. -/
theorem AsksTypeAt.run_of_ok {context : Context} {target : Node} {ask : Checker → Query Bool}
    {type : Ty} {answer : Bool} (h : AsksTypeAt context.checker target (ask context.checker))
    (htype : context.checker.typeAt target = some type)
    (hanswer : type.isTupleReturn.value = .ok answer) :
    context.run ask = (.ok answer, context.logger.keep type.isTupleReturn.messages) :=
  Prod.ext (h.of_ok type answer htype hanswer)
    (congrArg context.logger.keep (h.sent_of_type type htype))

theorem AsksTypeAt.run_of_error {context : Context} {target : Node} {ask : Checker → Query Bool}
    {type : Ty} {cause : DirectiveError}
    (h : AsksTypeAt context.checker target (ask context.checker))
    (htype : context.checker.typeAt target = some type)
    (hcause : type.isTupleReturn.value = .error cause) :
    context.run ask =
      (.error (.directive ⟨target.kind, target.file.name, target.range, cause⟩),
        context.logger.keep type.isTupleReturn.messages) :=
  Prod.ext (h.of_error type cause htype hcause)
    (congrArg context.logger.keep (h.sent_of_type type htype))

theorem hasDirectiveAt_congr {checker other : Checker} {target : Node} (kind : Directive.Kind)
    (h : checker.typeAt target = other.typeAt target) :
    checker.hasDirectiveAt target kind = other.hasDirectiveAt target kind := by
  simp only [Checker.hasDirectiveAt, Checker.directivesAt, h]

theorem asksAtOne_of_place {place : Node → Prop} {target : Node} {ask : Checker → Query Bool}
    (hplace : ∀ other, place other ↔ other = target)
    (hask : ∀ checker, ask checker = checker.hasDirectiveAt target .tupleReturn) :
    AsksAtOne place ask := by
  have halike : ∀ checker other : Checker,
      (∀ target, place target → checker.typeAt target = other.typeAt target) →
        ask checker = ask other := by
    intro checker other hsame
    rw [hask, hask, hasDirectiveAt_congr _ (hsame target ((hplace target).mpr rfl))]
  refine ⟨?_, ?_, ?_, halike, ?_⟩
  · intro left right hleft hright
    rw [(hplace left).mp hleft, (hplace right).mp hright]
  · intro checker other hother
    rw [(hplace other).mp hother, hask]
    exact asksTypeAt_hasDirectiveAt checker target
  · intro hno
    exact absurd ((hplace target).mpr rfl) (hno target)
  · intro checker other logger hsame
    simp only [Context.run, halike checker other hsame]

-- A query that finds no node to ask has the answer no.
theorem asksAtOne_of_no_place {place : Node → Prop} {ask : Checker → Query Bool}
    (hplace : ∀ target, ¬ place target) (hask : ∀ checker, ask checker = pure false) :
    AsksAtOne place ask where
  unique left _ hleft := absurd hleft (hplace left)
  of_place _ target htarget := absurd htarget (hplace target)
  of_no_place _ := hask
  alike checker other _ := by rw [hask, hask]
  run_alike checker other logger _ := by simp only [Context.run, hask]

theorem asksAtOne_isTupleReturnCall (node : Node) (hlinked : Linked node.file.cells) :
    AsksAtOne (CalleeOf node) fun checker => checker.isTupleReturnCall node := by
  by_cases hcall : ∃ callee, CalleeOf node callee
  · rcases hcall with ⟨callee, hcallee⟩
    exact asksAtOne_of_place hcallee.iff_eq fun checker =>
      isTupleReturnCall_of_callee checker hcallee
  · have hno := not_exists.mp hcall
    exact asksAtOne_of_no_place hno fun checker =>
      isTupleReturnCall_of_no_callee checker hlinked hno

theorem asksAtOne_isInTupleReturn (node : Node) (hlinked : Linked node.file.cells) :
    AsksAtOne (NearestAbove (·.is .functionDeclaration) node)
      fun checker => checker.isInTupleReturn node := by
  rcases exists_firstAbove node (·.is .functionDeclaration) hlinked with ⟨result, hresult⟩
  have hnearest := fun target =>
    firstAbove_eq_some_iff node (·.is .functionDeclaration) target hlinked
  simp only [hresult, Except.ok.injEq] at hnearest
  cases result with
  | none =>
      have hplace : ∀ target, ¬ NearestAbove (·.is .functionDeclaration) node target := by
        intro target
        rw [← hnearest target]
        simp only [reduceCtorEq, not_false_eq_true]
      exact asksAtOne_of_no_place hplace fun checker =>
        isInTupleReturn_of_firstAbove checker hresult
  | some function =>
      have hplace : ∀ other, NearestAbove (·.is .functionDeclaration) node other ↔
          other = function := by
        intro other
        rw [← hnearest other, Option.some.injEq, eq_comm]
      exact asksAtOne_of_place hplace fun checker =>
        isInTupleReturn_of_firstAbove checker hresult

/-- In a file that a recipe made, asking whether a call returns several values is asking the type
    of its callee, and asking whether a node is in a function that does is asking the type of the
    nearest function declaration above the node. Where there is no such node, or it has no type, the
    answer is no. Every call has a callee, and other nodes have none. -/
theorem tuple_returns_depend_on_one_node (node : Node) (h : node.file.Built) :
    AsksAtOne (CalleeOf node) (fun checker => checker.isTupleReturnCall node) ∧
    ((∃ callee, CalleeOf node callee) ↔ node.kind = .callExpression) ∧
    AsksAtOne (NearestAbove (·.is .functionDeclaration) node)
      (fun checker => checker.isInTupleReturn node) :=
  ⟨asksAtOne_isTupleReturnCall node h.linked, exists_callee_iff node h.linked,
    asksAtOne_isInTupleReturn node h.linked⟩

/-- A call in a function that stands in another one. The callee is marked, and the call has that
    answer. The inner function has a wrong directive, behind a mark that comes twice: asking for the
    function around the call fails there and not at the call, after the repetition has been
    reported. That another checker also knows types of the call itself and of the outer function
    makes no difference. -/
theorem tuple_returns_depend_on_one_node_nested :
    ∃ (call : Node) (marked wrong : Ty) (context other : Context),
      call.file.Built ∧ call.kind = .callExpression ∧ call.id = 1 ∧
      context = ⟨(TypeTable.ofList [(0, marked), (5, wrong)]).checker, .recording .debug⟩ ∧
      other = ⟨(TypeTable.ofList [(0, marked), (1, wrong), (5, wrong), (8, marked)]).checker,
        .recording .debug⟩ ∧
      context.run (fun checker => checker.isTupleReturnCall call) =
        (.ok true, [⟨.debug, "'f' carries 1 directive(s): TupleReturn"⟩]) ∧
      context.run (fun checker => checker.isInTupleReturn call) =
        (.error (.directive ⟨.functionDeclaration, "a.ts", ⟨3, 9⟩,
            .unrecognized "Nope" "!Nope" "g"⟩),
          [⟨.debug, "'g' declares !TupleReturn more than once; keeping the last one"⟩]) ∧
      other.run (fun checker => checker.isTupleReturnCall call) =
        context.run (fun checker => checker.isTupleReturnCall call) ∧
      other.run (fun checker => checker.isInTupleReturn call) =
        context.run (fun checker => checker.isInTupleReturn call) := by
  have hbuilt : (SourceFile.mk "a.ts" #[⟨.identifier "h", .none, some 1, {}⟩,
      ⟨.callExpression 0 [], .none, some 2, {}⟩, ⟨.expressionStatement 1, .none, some 4, {}⟩,
      ⟨.identifier "g", .none, some 5, {}⟩, ⟨.block [2], .none, some 5, {}⟩,
      ⟨.functionDeclaration (some 3) [] (some 4), .none, some 7, ⟨3, 9⟩⟩,
      ⟨.identifier "f", .none, some 8, {}⟩, ⟨.block [5], .none, some 8, {}⟩,
      ⟨.functionDeclaration (some 6) [] (some 7), .none, some 9, {}⟩,
      ⟨.sourceFile [8], .none, none, {}⟩] 9 0).Built :=
    ⟨[.identifier "h", .call 0 [], .expressionStatement 1, .functionDeclaration "g" [2],
      .range 5 ⟨3, 9⟩, .functionDeclaration "f" [5]], _, [8], rfl, rfl⟩
  rcases tuple_returns_depend_on_one_node ⟨_, 1, by decide⟩ hbuilt with ⟨hcall, _, hinside⟩
  have hnearest := (firstAbove_eq_some_iff ⟨_, 1, by decide⟩ (·.is .functionDeclaration)
    ⟨_, 5, by decide⟩ hbuilt.linked).mp rfl
  have hcallee := fun checker => hcall.of_place checker ⟨_, 0, by decide⟩ ⟨0, [], rfl, rfl⟩
  have hfunction := fun checker => hinside.of_place checker _ hnearest
  refine ⟨⟨_, 1, by decide⟩, Ty.object (Symbol.mk "f" ⟨0⟩ [.plain "!TupleReturn"] none),
    Ty.object (Symbol.mk "g" ⟨0⟩ [.plain "!TupleReturn\n!tuplereturn\n!Nope"] none), _, _, hbuilt,
    rfl, rfl, rfl, rfl, Eq.trans (AsksTypeAt.run_of_ok (hcallee _) rfl rfl) ?_,
    Eq.trans (AsksTypeAt.run_of_error (hfunction _) rfl rfl) ?_,
    hcall.run_alike _ _ _ fun target htarget => ?_,
    hinside.run_alike _ _ _ fun target htarget => ?_⟩
  · decide +kernel
  · decide +kernel
  · rw [hcall.unique target ⟨_, 0, by decide⟩ htarget ⟨0, [], rfl, rfl⟩]
    rfl
  · rw [hinside.unique target _ htarget hnearest]
    rfl

end TreeQuery
