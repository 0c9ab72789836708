import TreeQuery.Proofs.Log.Kept
import TreeQuery.Proofs.Query.Answer

/-!
# Messages of queries

What a query sends is told part by part, like its answer. The messages of consecutive
parts stand one after the other, and a part that fails is the last one to send any. The
answer and what is sent are all there is of a query, so two queries that have both in
common are the same.

## Main definitions

* `Query.sent`: What a query sends.

## Theorems

* `Query.ext_parts`: A query is its answer and what it sends.
* `sent_bind_of_ok`, `sent_bind_of_error`, `sent_map`: What each part sends.
* `map_ofReading`: A reading that is changed afterwards.
* `Context.answer_run`, `Context.kept_run`: What a context makes of a query.
-/

namespace TreeQuery

/-- What a query sends, whoever listens and whatever it answers. -/
def Query.sent (query : Query α) : List Message :=
  Traced.messages query

namespace Query

theorem ext_parts {left right : Query α} (hanswer : left.answer = right.answer)
    (hsent : left.sent = right.sent) : left = right := by
  change Traced.mk left.answer left.sent = Traced.mk right.answer right.sent
  rw [hanswer, hsent]

theorem sent_bind_of_ok {query : Query α} {value : α} (next : α → Query β)
    (h : query.answer = .ok value) : (query >>= next).sent = query.sent ++ (next value).sent := by
  change query.sent ++ Traced.messages (ExceptT.bindCont next query.answer) = _
  rw [h]
  rfl

-- Nothing is sent behind a failure.
theorem sent_bind_of_error {query : Query α} {error : QueryError} (next : α → Query β)
    (h : query.answer = .error error) : (query >>= next).sent = query.sent := by
  change query.sent ++ Traced.messages (ExceptT.bindCont next query.answer) = _
  rw [h]
  exact List.append_nil _

theorem sent_map (change : α → β) (query : Query α) : (change <$> query).sent = query.sent := by
  rw [← bind_pure_comp]
  cases hanswer : query.answer with
  | error cause => exact sent_bind_of_error _ hanswer
  | ok value => exact (sent_bind_of_ok _ hanswer).trans (List.append_nil _)

theorem map_ofReading (change : α → β) (node : Node) (reading : Traced (Except DirectiveError α)) :
    change <$> ofReading node reading =
      ofReading node ⟨reading.value.map change, reading.messages⟩ := by
  refine ext_parts ?_ (sent_map change _)
  rw [answer_map, answer_ofReading, answer_ofReading]
  cases reading.value with
  | error cause => rfl
  | ok value => rfl

end Query

namespace Context

theorem answer_run (context : Context) (ask : Checker → Query α) :
    (context.run ask).1 = (ask context.checker).answer :=
  rfl

theorem kept_run (context : Context) (ask : Checker → Query α) :
    (context.run ask).2 = context.logger.keep (ask context.checker).sent :=
  rfl

end Context

end TreeQuery
