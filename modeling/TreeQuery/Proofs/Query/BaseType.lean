import TreeQuery.Proofs.Query.Messages
import TreeQuery.Query.BaseClass

/-!
# The base of a class

Asking for the base of a class ends early if the class names none, or if the place where
it does has no type. Otherwise the directives at this place are read, and what follows
depends on nothing but them: the base is the type at the place, or there is none and a
message says so. Answer and messages are told apart here once, so that nothing else has to
follow the query through its cases.

## Main definitions

* `Ty.inherited`: What is inherited of a type with some directives.
* `Checker.partingMessages`: What is said once the directives of a base are known.

## Theorems

* `Ty.inherited_of_mem`, `Ty.inherited_of_not_mem`, `partingMessages_of_mem`,
  `partingMessages_of_not_mem`: Bases that are pure abstract, and others.
* `baseType_of_no_type`: A class without a base that has a type.
* `baseType_of_type`: Asking for a base is reading its directives, and then parting.
* `answer_baseType`, `sent_baseType_of_ok`, `sent_baseType_of_other`: What asking for a
  base answers and sends.
-/

namespace TreeQuery

/-- What is inherited of a type with some directives: the type, unless it is pure abstract. -/
def Ty.inherited (type : Ty) (set : DirectiveSet) : Option Ty :=
  if set.has .pureAbstract then none else some type

theorem Ty.inherited_of_mem (type : Ty) {set : DirectiveSet} (h : .pureAbstract ∈ set.kinds) :
    type.inherited set = none :=
  if_pos ((set.has_iff_mem_kinds _).mpr h)

theorem Ty.inherited_of_not_mem (type : Ty) {set : DirectiveSet}
    (h : .pureAbstract ∉ set.kinds) : type.inherited set = some type :=
  if_neg fun hpure => h ((set.has_iff_mem_kinds _).mp hpure)

namespace Checker

/-- What is said once the directives of a base are known: nothing, unless it is pure abstract. -/
def partingMessages (checker : Checker) (declaration : Node) (type : Ty)
    (set : DirectiveSet) : List Message :=
  if set.has .pureAbstract then [⟨.debug, checker.pureAbstractMessage declaration type⟩] else []

theorem partingMessages_of_mem (checker : Checker) (declaration : Node) (type : Ty)
    {set : DirectiveSet} (h : .pureAbstract ∈ set.kinds) :
    checker.partingMessages declaration type set =
      [⟨.debug, checker.pureAbstractMessage declaration type⟩] :=
  if_pos ((set.has_iff_mem_kinds _).mpr h)

theorem partingMessages_of_not_mem (checker : Checker) (declaration : Node) (type : Ty)
    {set : DirectiveSet} (h : .pureAbstract ∉ set.kinds) :
    checker.partingMessages declaration type set = [] :=
  if_neg fun hpure => h ((set.has_iff_mem_kinds _).mp hpure)

theorem baseType_of_no_type (checker : Checker) {declaration : Node} {base : Option Node}
    (hbase : declaration.baseExpression = .ok base) (htype : base.bind checker.typeAt = none) :
    checker.baseType declaration = pure none := by
  rw [baseType, Query.bind_walk _ hbase]
  cases base with
  | none => rfl
  | some place =>
      rw [Option.bind_some] at htype
      simp only [htype]

section

variable (checker : Checker) {declaration base : Node} {type : Ty}
  (hbase : declaration.baseExpression = .ok (some base))
  (htype : checker.typeAt base = some type)

include hbase htype

theorem baseType_of_type :
    checker.baseType declaration = checker.directivesAt base >>= fun set =>
      ⟨.ok (type.inherited set), checker.partingMessages declaration type set⟩ := by
  rw [baseType, Query.bind_walk _ hbase, directivesAt_of_type htype]
  simp only [htype]
  refine congrArg (_ >>= ·) (funext fun set => ?_)
  by_cases hpure : set.has .pureAbstract = true
  · simp only [Ty.inherited, partingMessages, if_pos hpure]
    rfl
  · simp only [Ty.inherited, partingMessages, if_neg hpure]
    rfl

theorem answer_baseType :
    (checker.baseType declaration).answer =
      type.inherited <$> (checker.directivesAt base).answer := by
  rw [baseType_of_type checker hbase htype, Query.answer_bind, ← bind_pure_comp]
  rfl

theorem sent_baseType_of_ok {set : DirectiveSet}
    (h : (checker.directivesAt base).answer = .ok set) :
    (checker.baseType declaration).sent =
      (checker.directivesAt base).sent ++ checker.partingMessages declaration type set := by
  rw [baseType_of_type checker hbase htype, Query.sent_bind_of_ok _ h]
  rfl

-- Unless the directives are read and the base is pure abstract, nothing is added.
theorem sent_baseType_of_other
    (h : ∀ set, (checker.directivesAt base).answer = .ok set → .pureAbstract ∉ set.kinds) :
    (checker.baseType declaration).sent = (checker.directivesAt base).sent := by
  cases hread : (checker.directivesAt base).answer with
  | error cause => rw [baseType_of_type checker hbase htype, Query.sent_bind_of_error _ hread]
  | ok set =>
      rw [sent_baseType_of_ok checker hbase htype hread,
        checker.partingMessages_of_not_mem declaration type (h set hread), List.append_nil]

end

end Checker

end TreeQuery
