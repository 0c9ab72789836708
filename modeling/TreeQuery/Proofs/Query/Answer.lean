import TreeQuery.Proofs.Directive.Extraction
import TreeQuery.Proofs.Outcome

/-!
# Answers of queries

A query is a computation with messages that may fail. Its answer is what is left of it
when the messages are dropped, and it can be computed without them: the answer of
consecutive parts is the answer of the first, followed by that of the second.

Reading the directives at a place fails in one way only. The place has a type, the
type has a symbol, and some line of its documentation declares no directive. In every
other case there is an answer, and where a type or a symbol is missing it is the one
for no directives.

## Main definitions

* `Query.answer`: What a query answers, without its messages.
* `Checker.Faulty`: The directives at a place are wrong.

## Theorems

* `bind_walk`: A walk that succeeds is followed by the rest of the query.
* `answer_bind`, `answer_bind_walk`, `answer_ofReading`: The answer of each part.
* `answer_ofReading_of_ok`, `answer_ofReading_of_error`: A reading that succeeds, and one that
  fails.
* `exists_faulty_iff`: The directives at a place are wrong if a line declares none.
* `directivesAt_of_type`, `directivesAt_of_no_type`: What is read at a place.
* `answer_directivesAt_of_faulty`, `exists_answer_directivesAt`: What reading the
  directives at a place answers.
-/

namespace TreeQuery

/-- What a query answers, without its messages. -/
def Query.answer (query : Query α) : Except QueryError α :=
  Traced.value query

namespace Query

theorem answer_bind (query : Query α) (next : α → Query β) :
    (query >>= next).answer = query.answer >>= fun value => (next value).answer := by
  change (ExceptT.bindCont next query.answer : Traced (Except QueryError β)).value = _
  cases query.answer with
  | error cause => rfl
  | ok value => rfl

theorem answer_map (change : α → β) (query : Query α) :
    (change <$> query).answer = change <$> query.answer := by
  rw [← bind_pure_comp, answer_bind, ← bind_pure_comp]
  rfl

-- A walk that succeeds is followed by the rest of the query, and leaves no messages.
theorem bind_walk {walk : Except OutOfFile α} {value : α} (next : α → Query β)
    (h : walk = .ok value) : ((liftM walk : Query α) >>= next) = next value := by
  rw [h]
  rfl

theorem answer_bind_walk {walk : Except OutOfFile α} {value : α} (next : α → Query β)
    (h : walk = .ok value) :
    ((liftM walk : Query α) >>= next).answer = (next value).answer := by
  rw [bind_walk next h]

theorem answer_ofReading (node : Node) (reading : Traced (Except DirectiveError α)) :
    (ofReading node reading).answer =
      reading.value.mapError fun cause => .directive (.placedAt node cause) :=
  rfl

theorem answer_ofReading_of_ok (node : Node) {reading : Traced (Except DirectiveError α)} {value : α}
    (h : reading.value = .ok value) : (ofReading node reading).answer = .ok value := by
  rw [answer_ofReading, h]
  rfl

-- The error of a reading gets its place here.
theorem answer_ofReading_of_error (node : Node) {reading : Traced (Except DirectiveError α)}
    {cause : DirectiveError} (h : reading.value = .error cause) : (ofReading node reading).answer =
      .error (.directive ⟨node.kind, node.file.name, node.range, cause⟩) := by
  rw [answer_ofReading, h]
  rfl

end Query

namespace Checker

/-- The type at a place has directives that are wrong for the given cause. -/
def Faulty (checker : Checker) (place : Node) (cause : DirectiveError) : Prop :=
  ∃ type, checker.typeAt place = some type ∧ type.directives.value = .error cause

/-- The directives at a place are wrong exactly if the type there has a symbol, and some line of
    its documentation that is marked as a directive declares none. -/
theorem exists_faulty_iff (checker : Checker) (place : Node) :
    (∃ cause, checker.Faulty place cause) ↔
      ∃ type symbol, checker.typeAt place = some type ∧ type.symbol = some symbol ∧
        ∃ line ∈ Directive.linesOf symbol.documentation, Directive.ofLine? line = none := by
  constructor
  · intro hfaulty
    rcases hfaulty with ⟨cause, type, htype, hcause⟩
    cases hsymbol : type.symbol with
    | none =>
        -- Without a symbol nothing is read, and nothing can be wrong.
        rw [Ty.directives, hsymbol] at hcause
        exact absurd hcause (by simp only [Traced.silent, reduceCtorEq, not_false_eq_true])
    | some symbol =>
        rw [Ty.directives, hsymbol] at hcause
        exact ⟨type, symbol, htype, hsymbol, (Directive.exists_error_iff symbol).mp ⟨cause, hcause⟩⟩
  · intro hbad
    rcases hbad with ⟨type, symbol, htype, hsymbol, hbad⟩
    rcases (Directive.exists_error_iff symbol).mpr hbad with ⟨cause, hcause⟩
    refine ⟨cause, type, htype, ?_⟩
    rw [Ty.directives, hsymbol]
    exact hcause

theorem directivesAt_of_type {checker : Checker} {place : Node} {type : Ty}
    (h : checker.typeAt place = some type) :
    checker.directivesAt place = .ofReading place type.directives := by
  simp only [directivesAt, h]

theorem directivesAt_of_no_type {checker : Checker} {place : Node}
    (h : checker.typeAt place = none) : checker.directivesAt place = pure .empty := by
  simp only [directivesAt, h]

theorem answer_directivesAt_of_faulty {checker : Checker} {place : Node} {cause : DirectiveError}
    (h : checker.Faulty place cause) :
    (checker.directivesAt place).answer = .error (.directive (.placedAt place cause)) := by
  rcases h with ⟨type, htype, hcause⟩
  rw [directivesAt_of_type htype]
  exact Query.answer_ofReading_of_error place hcause

-- Directives that are not wrong are read.
theorem exists_answer_directivesAt {checker : Checker} {place : Node}
    (h : ∀ cause, ¬ checker.Faulty place cause) :
    ∃ set, (checker.directivesAt place).answer = .ok set := by
  cases htype : checker.typeAt place with
  | none =>
      refine ⟨.empty, ?_⟩
      rw [directivesAt_of_no_type htype]
      rfl
  | some type =>
      cases hreading : type.directives.value with
      | error cause => exact absurd ⟨type, htype, hreading⟩ (h cause)
      | ok set =>
          refine ⟨set, ?_⟩
          rw [directivesAt_of_type htype]
          exact Query.answer_ofReading_of_ok place hreading

end Checker

end TreeQuery
