/-!
# Outcomes of steps that may fail

A computation into `Except` that consists of parts succeeds exactly if its parts
do. The lemmas here say so for the two ways in which parts are put together, in
the form in which a success is taken apart.

Two computations that do the same about related things succeed together and answer
related values. That is shown along the same lines, part by part.

## Main definitions

* `Agree`: Two computations succeed with related values.

## Theorems

* `map_eq_ok_iff`: A value that was changed on the way out came from a success.
* `map_eq_error_iff`: An error is not changed on the way out.
* `bind_eq_ok_iff`: Two steps succeed together if each does.
* `Agree.exists_ok`: A computation that agrees with another succeeds.
* `Agree.map`, `Agree.bind`: Computations agree if their parts do.
-/

namespace TreeQuery

theorem map_eq_ok_iff (f : α → β) (outcome : Except ε α) (value : β) :
    f <$> outcome = .ok value ↔ ∃ inner, outcome = .ok inner ∧ f inner = value := by
  cases outcome with
  | error cause => simp [Functor.map, Except.map]
  | ok inner => simp [Functor.map, Except.map]

theorem map_eq_error_iff (f : α → β) (outcome : Except ε α) (error : ε) :
    f <$> outcome = .error error ↔ outcome = .error error := by
  cases outcome with
  | error cause => simp [Functor.map, Except.map]
  | ok inner => simp [Functor.map, Except.map]

theorem bind_eq_ok_iff (outcome : Except ε α) (next : α → Except ε β) (value : β) :
    (outcome >>= next) = .ok value ↔ ∃ inner, outcome = .ok inner ∧ next inner = .ok value := by
  cases outcome with
  | error cause => simp [bind, Except.bind]
  | ok inner => simp [bind, Except.bind]

/-- Both computations succeed, and their values are related. -/
def Agree (R : α → β → Prop) (left : Except ε α) (right : Except ε β) : Prop :=
  ∃ value other, left = .ok value ∧ right = .ok other ∧ R value other

namespace Agree

variable {R : α → β → Prop} {S : γ → δ → Prop} {left : Except ε α} {right : Except ε β}

theorem exists_ok (h : Agree R left right) : ∃ value, left = .ok value := by
  rcases h with ⟨value, _, hvalue, _⟩
  exact ⟨value, hvalue⟩

theorem pure {value : α} {other : β} (h : R value other) :
    Agree R (Pure.pure value : Except ε α) (Pure.pure other) :=
  ⟨value, other, rfl, rfl, h⟩

theorem bind {next : α → Except ε γ} {further : β → Except ε δ} (h : Agree R left right)
    (hnext : ∀ value other, R value other → Agree S (next value) (further other)) :
    Agree S (left >>= next) (right >>= further) := by
  rcases h with ⟨value, other, rfl, rfl, hrelated⟩
  exact hnext value other hrelated

theorem map {change : α → γ} {convert : β → δ} (h : Agree R left right)
    (hchange : ∀ value other, R value other → S (change value) (convert other)) :
    Agree S (change <$> left) (convert <$> right) := by
  rcases h with ⟨value, other, rfl, rfl, hrelated⟩
  exact ⟨_, _, rfl, rfl, hchange value other hrelated⟩

end Agree

end TreeQuery
