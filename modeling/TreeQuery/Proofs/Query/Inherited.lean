import TreeQuery.Proofs.Query.Location

/-!
# Bases that are inherited from

Asking for the base of a class reads the directives of a type, like asking for the
directives at a node does. The node is the place where the class names its base, and as
long as this place is found and has a type, the two queries go alongside each other: they
fail together, over the same error at the same place, and they send the same messages.

They part only when the directives are known. A base that is pure abstract counts as none,
and this is the one thing that is said about it in addition. Any other base is the type
that was resolved, and nothing more is said.

## Main definitions

* `FollowsDirectives`: Asking for a base, told by the directives at its place.

## Theorems

* `followsDirectives`: Asking for a base with a place and a type.
* `base_type_follows_directives`: Asking for a base, in every file.
-/

namespace TreeQuery

/-- Asking for the base of a class, where the base has a place and a type, is told by reading the
    directives at this place. -/
structure FollowsDirectives (context : Context) (declaration base : Node) (type : Ty) : Prop where
  fails_iff : ∀ error,
    (context.run fun checker => checker.baseType declaration).1 = .error error ↔
      (context.run fun checker => checker.directivesAt base).1 = .error error
  none_of_pureAbstract : ∀ set,
    (context.run fun checker => checker.directivesAt base).1 = .ok set →
      Directive.Kind.pureAbstract ∈ set.kinds →
        (context.run fun checker => checker.baseType declaration).1 = .ok none
  some_of_other : ∀ set,
    (context.run fun checker => checker.directivesAt base).1 = .ok set →
      Directive.Kind.pureAbstract ∉ set.kinds →
        (context.run fun checker => checker.baseType declaration).1 = .ok (some type)
  /-- One message is sent behind those of the directives, and a logger treats it like these. -/
  messages_of_pureAbstract : ∀ set,
    (context.run fun checker => checker.directivesAt base).1 = .ok set →
      Directive.Kind.pureAbstract ∈ set.kinds →
        (context.checker.baseType declaration).sent =
          (context.checker.directivesAt base).sent ++
            [⟨.debug, context.checker.pureAbstractMessage declaration type⟩] ∧
        (context.run fun checker => checker.baseType declaration).2 =
          (context.run fun checker => checker.directivesAt base).2 ++
            context.logger.keep [⟨.debug, context.checker.pureAbstractMessage declaration type⟩]
  /-- No other message is sent, where the directives are wrong or the base is not pure abstract. -/
  messages_of_other :
    (∀ set, (context.run fun checker => checker.directivesAt base).1 = .ok set →
      Directive.Kind.pureAbstract ∉ set.kinds) →
        (context.checker.baseType declaration).sent =
          (context.checker.directivesAt base).sent ∧
        (context.run fun checker => checker.baseType declaration).2 =
          (context.run fun checker => checker.directivesAt base).2

theorem followsDirectives (context : Context) {declaration base : Node} {type : Ty}
    (hbase : declaration.baseExpression = .ok (some base))
    (htype : context.checker.typeAt base = some type) :
    FollowsDirectives context declaration base type := by
  have hanswer := Checker.answer_baseType context.checker hbase htype
  refine ⟨fun error => ?_, ?_, ?_, ?_, ?_⟩
  · rw [Context.answer_run, Context.answer_run, hanswer, map_eq_error_iff]
  · intro set hread hpure
    rw [Context.answer_run] at hread ⊢
    rw [hanswer, hread, map_eq_ok_iff]
    exact ⟨set, rfl, type.inherited_of_mem hpure⟩
  · intro set hread hother
    rw [Context.answer_run] at hread ⊢
    rw [hanswer, hread, map_eq_ok_iff]
    exact ⟨set, rfl, type.inherited_of_not_mem hother⟩
  · intro set hread hpure
    rw [Context.answer_run] at hread
    have hsent := Checker.sent_baseType_of_ok context.checker hbase htype hread
    rw [context.checker.partingMessages_of_mem declaration type hpure] at hsent
    rw [Context.kept_run, Context.kept_run, hsent, Logger.keep_append]
    exact ⟨rfl, rfl⟩
  · intro hother
    have hsent := Checker.sent_baseType_of_other context.checker hbase htype hother
    rw [Context.kept_run, Context.kept_run, hsent]
    exact ⟨rfl, rfl⟩

/-- In a file that a recipe made there always is an answer to where a class names its base. If it
    names none, or the place has no type, there is no base, and nothing is said. Otherwise asking
    for the base follows the directives at this place: it fails with their error, it gives no base
    if they make it pure abstract, and it gives the type at the place if they do not. What is sent
    are the messages of the directives, and one more about a base that is pure abstract. -/
theorem base_type_follows_directives (context : Context) (declaration : Node)
    (h : declaration.file.Built) :
    ∃ base, declaration.baseExpression = .ok base ∧
      (base.bind context.checker.typeAt = none →
        (context.run fun checker => checker.baseType declaration) = (.ok none, []) ∧
        (context.checker.baseType declaration).sent = []) ∧
      ∀ place type, base = some place → context.checker.typeAt place = some type →
        FollowsDirectives context declaration place type := by
  rcases exists_baseExpression declaration h.linked with ⟨base, hbase⟩
  refine ⟨base, hbase, fun hnone => ?_, ?_⟩
  · have hsilent := Checker.baseType_of_no_type context.checker hbase hnone
    rw [Context.run, hsilent]
    exact ⟨rfl, rfl⟩
  · rintro place type rfl htype
    exact followsDirectives context hbase htype

/-- The base of a class is marked twice. The two messages about its directives come first, and the
    one about the base comes last. -/
theorem base_type_follows_directives_twice :
    ∃ (declaration base : Node) (type : Ty), declaration.file.Built ∧
      declaration.baseExpression = .ok (some base) ∧ base.id = 1 ∧
      (Context.mk (TypeTable.ofList [(1, type)]).checker (.recording .debug)).run
          (fun checker => checker.baseType declaration) =
        (.ok none, [⟨.debug, "'A' declares !PureAbstract more than once; keeping the last one"⟩,
          ⟨.debug, "'A' carries 1 directive(s): PureAbstract"⟩, ⟨.debug,
            "base 'A' [OBJECT] of ClassDeclaration#4 is pure abstract; not inheriting from it"⟩]) := by
  have hbuilt : (SourceFile.mk "b.ts" #[⟨.identifier "A", .none, some 1, {}⟩,
      ⟨.expressionWithTypeArguments 0, .none, some 2, {}⟩,
      ⟨.heritageClause .extendsKeyword [1], .none, some 4, {}⟩,
      ⟨.identifier "B", .none, some 4, {}⟩, ⟨.classDeclaration (some 3) [2], .none, some 5, {}⟩,
      ⟨.sourceFile [4], .none, none, {}⟩] 5 0).Built :=
    ⟨[.heritageClause .extendsKeyword ["A"], .classDeclaration "B" [2]], _, [4], rfl, rfl⟩
  rcases base_type_follows_directives (Context.mk (TypeTable.ofList [(1, Ty.object (Symbol.mk "A"
    ⟨0⟩ [.plain "!PureAbstract\n!pureabstract"] none))]).checker (.recording .debug))
    ⟨_, 4, by decide⟩ hbuilt with ⟨base, hbase, _, hfollows⟩
  have hplace := Except.ok.inj hbase
  have hdirectives := hfollows _ _ hplace.symm rfl
  have hanswer := hdirectives.none_of_pureAbstract _ rfl (by decide)
  have hmessages := (hdirectives.messages_of_pureAbstract _ rfl (by decide)).2
  refine ⟨⟨_, 4, by decide⟩, ⟨_, 1, by decide⟩, Ty.object (Symbol.mk "A" ⟨0⟩
    [.plain "!PureAbstract\n!pureabstract"] none), hbuilt, rfl, rfl, ?_⟩
  refine Prod.ext hanswer (hmessages.trans ?_)
  decide +kernel

end TreeQuery
