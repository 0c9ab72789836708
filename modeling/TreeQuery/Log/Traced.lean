import TreeQuery.Log.Level

/-!
# Computations that leave messages

A computation that has something to say about its way returns what it has to say
beside its value. It knows nothing of who listens: it returns every message, and
a logger decides afterwards which of them to keep. So the value cannot depend on
the logger, and what a logger keeps is a function of the messages.

Messages of consecutive parts are joined by appending lists, which makes the
computations a lawful monad: how the parts are bracketed cannot be seen from what
is left in the end.

## Main definitions

* `Message`: A text with its severity.
* `Traced`: A value with the messages on the way to it.

## Theorems

* `value_pure`, `value_bind`: The value is that of the computation without its
  messages.
* `messages_pure`, `messages_bind`: Messages come in the order of the parts.
-/

namespace TreeQuery

/-- A text with its severity. -/
structure Message where
  level : Level
  text : String
  deriving DecidableEq

/-- A value, with the messages on the way to it in their order. -/
structure Traced (α : Type u) where
  value : α
  /-- The messages, oldest first. -/
  messages : List Message := []

namespace Traced

def silent (value : α) : Traced α := ⟨value, []⟩

/-- Continue from a value, with the messages of both parts one after the other. -/
def andThen (first : Traced α) (next : α → Traced β) : Traced β :=
  let second := next first.value
  ⟨second.value, first.messages ++ second.messages⟩

instance : Monad Traced where
  pure := silent
  bind := andThen

instance : LawfulMonad Traced := LawfulMonad.mk' Traced
  (by intro α first; simp [Functor.map, andThen, silent])
  (by intro α β value next; simp [Bind.bind, Pure.pure, andThen, silent])
  (by intro α β γ first next last; simp [Bind.bind, andThen])

def debug (text : String) : Traced Unit := ⟨(), [⟨.debug, text⟩]⟩

@[simp] theorem value_pure (value : α) : (pure value : Traced α).value = value := rfl

@[simp] theorem messages_pure (value : α) : (pure value : Traced α).messages = [] := rfl

@[simp] theorem value_bind (first : Traced α) (next : α → Traced β) :
    (first >>= next).value = (next first.value).value := rfl

@[simp] theorem messages_bind (first : Traced α) (next : α → Traced β) :
    (first >>= next).messages = first.messages ++ (next first.value).messages := rfl

end Traced

end TreeQuery
