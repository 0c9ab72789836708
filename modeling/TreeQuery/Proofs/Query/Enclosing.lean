import TreeQuery.Proofs.Query.Messages
import TreeQuery.Proofs.Tree.Forest
import TreeQuery.Query.Statement
import TreeQuery.Query.TupleReturn

/-!
# What encloses a node

Questions about the surroundings of a node are meant about what contains it, and they
are answered by walking up from it. In a file where no node is used twice the two are
the same: the way up goes through the nodes that contain a node, the inner ones first.

A search on the way up stops at the first node that satisfies a condition. Seen from
above, that is the innermost one: it contains the node, and between the two there is
no other that satisfies the condition. So a block is found exactly if the node stands in
one, and the function that is looked up is the innermost one around the node.

## Main definitions

* `Innermost`: The innermost of the nodes around a node that satisfy a condition.
* `AsksTypeAt`: A query asks the type at a node whether it returns several values.

## Theorems

* `innermost_of_parent`: The innermost node, one step further down.
* `nearestAbove_iff_innermost`: The nearest node above is the innermost one around.
* `firstAbove_eq_none_iff`: A search finds nothing if nothing around satisfies the
  condition.
* `asksTypeAt_hasDirectiveAt`: What is asked of the type at a node.
* `isInTupleReturn_of_firstAbove`: What looking for the function around a node gives.
* `search_is_innermost`: A search above a node, and the two questions that rest on it.
-/

namespace TreeQuery

/-- The second node contains the first and satisfies the condition, and no other such node lies
    strictly between them. -/
def Innermost (condition : Node → Bool) (node found : Node) : Prop :=
  condition found = true ∧ Contains found node ∧
    ∀ between, condition between = true → Contains found between → ¬ Contains between node

/-- A query asks the type at a node whether it returns several values. The answer is the one that
    the type itself gives, and so are the messages. An error of the type is placed at the node, and
    a node without a type does not return several values. -/
structure AsksTypeAt (checker : Checker) (target : Node) (query : Query Bool) : Prop where
  of_ok : ∀ type answer, checker.typeAt target = some type →
    type.isTupleReturn.value = .ok answer → query.answer = .ok answer
  of_error : ∀ type cause, checker.typeAt target = some type →
    type.isTupleReturn.value = .error cause →
      query.answer = .error (.directive ⟨target.kind, target.file.name, target.range, cause⟩)
  sent_of_type : ∀ type, checker.typeAt target = some type →
    query.sent = type.isTupleReturn.messages
  of_no_type : checker.typeAt target = none → query.answer = .ok false ∧ query.sent = []

-- No node contains itself, and no two contain each other.
theorem Linked.not_contains_of_contains {outer inner : Node} (hlinked : Linked outer.file.cells)
    (h : Contains outer inner) : ¬ Contains inner outer := by
  intro hback
  rcases place_of_contains hlinked h with ⟨hfile, hlt⟩
  rw [← hfile] at hlinked
  exact Nat.lt_asymm hlt (place_of_contains hlinked hback).2

-- The innermost node around a node is its parent, if that satisfies the condition, and
-- otherwise the innermost one around the parent.
theorem innermost_of_parent {condition : Node → Bool} {node above : Node}
    (hlinked : Linked node.file.cells) (hinverse : Inverse node.file)
    (hparent : node.parent = .ok (some above)) (found : Node) :
    Innermost condition node found ↔
      (condition above = true ∧ above = found) ∨
        (condition above = false ∧ Innermost condition above found) := by
  have hcontains := contains_iff_of_parent hinverse hparent
  have hfile := ((parent_eq_some_iff ..).mp hparent).2
  rw [← hfile] at hlinked
  constructor
  · intro hinner
    rcases hinner with ⟨hfound, haround, hbetween⟩
    rcases (hcontains found).mp haround with rfl | haround
    · exact Or.inl ⟨hfound, rfl⟩
    · -- The parent lies between, so it does not satisfy the condition.
      have habove : condition above = false := by
        rw [← Bool.not_eq_true]
        exact fun habove => hbetween above habove haround ((hcontains above).mpr (Or.inl rfl))
      exact Or.inr ⟨habove, hfound, haround, fun between hbetween' hunder hover =>
        hbetween between hbetween' hunder ((hcontains between).mpr (Or.inr hover))⟩
  · rintro (⟨habove, rfl⟩ | ⟨habove, hfound, haround, hbetween⟩)
    · refine ⟨habove, (hcontains above).mpr (Or.inl rfl), fun between _ hunder hover => ?_⟩
      rcases (hcontains between).mp hover with rfl | hover
      · exact hlinked.not_contains_of_contains hunder hunder
      · exact hlinked.not_contains_of_contains hunder hover
    · refine ⟨hfound, (hcontains found).mpr (Or.inr haround), fun between hcond hunder hover => ?_⟩
      rcases (hcontains between).mp hover with rfl | hover
      · rw [habove] at hcond
        exact Bool.false_ne_true hcond
      · exact hbetween between hcond hunder hover

-- The nearest node on the way up is the innermost one around. The induction is on the way up.
theorem nearestAbove_iff_innermost {condition : Node → Bool} {node : Node} {nodes : List Node}
    (h : LeadsUp node nodes) (hlinked : Linked node.file.cells) (hinverse : Inverse node.file)
    (found : Node) : NearestAbove condition node found ↔ Innermost condition node found := by
  induction h with
  | top hparent =>
      constructor
      · intro hnearest
        rcases exists_parent_of_nearestAbove hnearest with ⟨above, hother, _⟩
        rw [hparent] at hother
        exact absurd hother (by simp only [Except.ok.injEq, reduceCtorEq, not_false_eq_true])
      · intro hinner
        exact absurd hinner.2.1 (not_contains_of_top hinverse hparent found)
  | @step node above rest hparent _ ih =>
      have hfile := ((parent_eq_some_iff ..).mp hparent).2
      rw [nearestAbove_iff found hparent, innermost_of_parent hlinked hinverse hparent found,
        ih (hfile ▸ hlinked) (hfile ▸ hinverse)]

theorem firstAbove_eq_none_iff (node : Node) (condition : Node → Bool)
    (hlinked : Linked node.file.cells) (hinverse : Inverse node.file) :
    node.firstAbove condition = .ok none ↔
      ∀ above, Contains above node → condition above = false := by
  rcases exists_ancestors node hlinked with ⟨nodes, hnodes, hup⟩
  have hfind : node.firstAbove condition = .ok none ↔ nodes.find? condition = none := by
    rw [Node.firstAbove, map_eq_ok_iff, hnodes]
    simp only [Except.ok.injEq, exists_eq_left']
  rw [hfind, List.find?_eq_none]
  simp only [hup.mem_iff_contains hinverse, Bool.not_eq_true]

-- Whether a node is global is whether the search for a block finds nothing.
theorem isGlobal_eq_of_firstAbove {node : Node} {result : Option Node}
    (h : node.firstAbove (·.is .block) = .ok result) : node.isGlobal = .ok result.isNone :=
  (map_eq_ok_iff ..).mpr ⟨result, h, rfl⟩

/-- Asking for the directive at a node asks the type there. -/
theorem asksTypeAt_hasDirectiveAt (checker : Checker) (target : Node) :
    AsksTypeAt checker target (checker.hasDirectiveAt target .tupleReturn) := by
  have hreading : ∀ type, checker.typeAt target = some type →
      checker.hasDirectiveAt target .tupleReturn = .ofReading target type.isTupleReturn := by
    intro type htype
    rw [Checker.hasDirectiveAt, Checker.directivesAt_of_type htype]
    exact Query.map_ofReading ..
  refine ⟨fun type answer htype hanswer => ?_, fun type cause htype hcause => ?_,
    fun type htype => ?_, fun hnone => ?_⟩
  · rw [hreading type htype]
    exact Query.answer_ofReading_of_ok target hanswer
  · rw [hreading type htype]
    exact Query.answer_ofReading_of_error target hcause
  · rw [hreading type htype]
    rfl
  · rw [Checker.hasDirectiveAt, Checker.directivesAt_of_no_type hnone]
    exact ⟨rfl, rfl⟩

-- Once the function around a node is found, its directives are all that is looked at.
theorem isInTupleReturn_of_firstAbove (checker : Checker) {node : Node} {result : Option Node}
    (h : node.firstAbove (·.is .functionDeclaration) = .ok result) :
    checker.isInTupleReturn node =
      result.elim (pure false) fun function => checker.hasDirectiveAt function .tupleReturn := by
  rw [Checker.isInTupleReturn, Query.bind_walk _ h]
  cases result with
  | none => rfl
  | some function => rfl

/-- A search above a node always ends. It finds the innermost node around that satisfies the
    condition, of which there is one at most, and it finds nothing if no node around does. So a node
    is not global exactly if some block contains it, and whether it is in a function that returns
    several values is asked of the type of the innermost function declaration that contains it. -/
theorem search_is_innermost (node : Node) (h : node.file.BuiltOnce) :
    (∀ condition : Node → Bool,
      (∃ result, node.firstAbove condition = .ok result) ∧
      (∀ found, node.firstAbove condition = .ok (some found) ↔ Innermost condition node found) ∧
      (∀ left right, Innermost condition node left → Innermost condition node right →
        left = right) ∧
      (node.firstAbove condition = .ok none ↔
        ∀ above, Contains above node → condition above = false)) ∧
    (∃ answer, node.isGlobal = .ok answer ∧
      (answer = false ↔ ∃ block : Node, block.kind = .block ∧ Contains block node)) ∧
    ∀ checker : Checker,
      (∀ function, Innermost (·.is .functionDeclaration) node function →
        checker.isInTupleReturn node = checker.hasDirectiveAt function .tupleReturn ∧
          AsksTypeAt checker function (checker.isInTupleReturn node)) ∧
      ((∀ above : Node, Contains above node → above.kind ≠ .functionDeclaration) →
        checker.isInTupleReturn node = pure false) := by
  have hlinked := h.linked
  have hinverse := inverse_of_namedOnce hlinked h.namedOnce
  rcases exists_ancestors node hlinked with ⟨nodes, _, hup⟩
  have hfound : ∀ condition found,
      node.firstAbove condition = .ok (some found) ↔ Innermost condition node found := by
    intro condition found
    rw [firstAbove_eq_some_iff node condition found hlinked,
      nearestAbove_iff_innermost hup hlinked hinverse found]
  have hnone := fun condition => firstAbove_eq_none_iff node condition hlinked hinverse
  have his : ∀ (kind : Kind) (other : Node), other.is kind = true ↔ other.kind = kind := by
    intro kind other
    rw [Node.is, beq_iff_eq]
  refine ⟨fun condition => ⟨exists_firstAbove node condition hlinked, hfound condition, ?_,
    hnone condition⟩, ?_, fun checker => ⟨fun function hinner => ?_, fun hno => ?_⟩⟩
  · intro left right hleft hright
    rw [← hfound] at hleft hright
    rw [hleft, Except.ok.injEq, Option.some.injEq] at hright
    exact hright
  · rcases exists_firstAbove node (·.is .block) hlinked with ⟨result, hresult⟩
    refine ⟨result.isNone, isGlobal_eq_of_firstAbove hresult, ?_⟩
    have hsearch : result = none ↔ ∀ above, Contains above node → above.is .block = false := by
      rw [← hnone, hresult, Except.ok.injEq]
    rw [← Bool.not_eq_true, Option.isNone_iff_eq_none, hsearch]
    simp only [← his, not_forall, Bool.not_eq_false, exists_prop, and_comm]
  · rw [isInTupleReturn_of_firstAbove checker ((hfound _ function).mpr hinner), Option.elim_some]
    exact ⟨rfl, asksTypeAt_hasDirectiveAt checker function⟩
  · have hsearch := (hnone (·.is .functionDeclaration)).mpr fun above habove => by
      rw [← Bool.not_eq_true, his]
      exact hno above habove
    rw [isInTupleReturn_of_firstAbove checker hsearch, Option.elim_none]

/-- A statement in a function that stands in another one: the inner of the two is the one around it,
    although both contain it. -/
theorem search_is_innermost_nested :
    ∃ node inner outer : Node, node.file.BuiltOnce ∧ node.id = 0 ∧
      node.file.node 4 = .ok inner ∧ node.file.node 7 = .ok outer ∧
      Innermost (·.is .functionDeclaration) node inner ∧ node.isGlobal = .ok false ∧
      outer.kind = .functionDeclaration ∧ Contains outer inner := by
  have hbuilt : (SourceFile.mk "a.ts" #[⟨.identifier "x", .none, some 1, {}⟩,
      ⟨.expressionStatement 0, .none, some 3, {}⟩, ⟨.identifier "g", .none, some 4, {}⟩,
      ⟨.block [1], .none, some 4, {}⟩,
      ⟨.functionDeclaration (some 2) [] (some 3), .none, some 6, {}⟩,
      ⟨.identifier "f", .none, some 7, {}⟩, ⟨.block [4], .none, some 7, {}⟩,
      ⟨.functionDeclaration (some 5) [] (some 6), .none, some 8, {}⟩,
      ⟨.sourceFile [7], .none, none, {}⟩] 8 0).BuiltOnce :=
    ⟨[.identifier "x", .expressionStatement 0, .functionDeclaration "g" [1],
      .functionDeclaration "f" [4]], _, [7], rfl, rfl, by decide⟩
  have hinner := (((search_is_innermost ⟨_, 0, by decide⟩ hbuilt).1
    (·.is .functionDeclaration)).2.1 ⟨_, 4, by decide⟩).mp rfl
  have houter := (((search_is_innermost ⟨_, 4, by decide⟩ hbuilt).1
    (·.is .functionDeclaration)).2.1 ⟨_, 7, by decide⟩).mp rfl
  exact ⟨⟨_, 0, by decide⟩, ⟨_, 4, by decide⟩, ⟨_, 7, by decide⟩, hbuilt, rfl, rfl, rfl, hinner,
    rfl, rfl, houter.2.1⟩

end TreeQuery
