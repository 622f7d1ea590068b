import PubSub.Error

/-! # Promises

A promise takes one result and one listener, in either order, and hands the
result to the listener once both are there. Any further result or listener is
refused.
-/

namespace PubSub

/-- A single assignment of a result of type `α` to a listener of type `ℓ`. -/
inductive Promise (α ℓ : Type) where
  | pending (listener : Option ℓ)
  /-- Completed; the result is kept until a listener takes it. -/
  | completed (stored : Option (Except ClientError α))
  deriving Repr

namespace Promise

variable {α ℓ : Type}

def new : Promise α ℓ := .pending none

instance : Inhabited (Promise α ℓ) := ⟨new⟩

/-- A promise that has its listener from the beginning. -/
def listened (listener : ℓ) : Promise α ℓ := .pending (some listener)

def isDone : Promise α ℓ → Bool
  | pending _ => false
  | completed _ => true

def listenerAttached : ClientError :=
  .state "a listener is already attached to this promise"

/-- Completes the promise, and gives the listener that has to be told now. -/
def complete (p : Promise α ℓ) (result : Except ClientError α) :
    Except ClientError (Promise α ℓ × Option ℓ) :=
  match p with
  | completed _ => .error .alreadyCompleted
  | pending (some listener) => .ok (completed none, some listener)
  | pending none => .ok (completed (some result), none)

/-- Attaches a listener, and gives the result that it has to be told now. -/
def attach (p : Promise α ℓ) (listener : ℓ) :
    Except ClientError (Promise α ℓ × Option (Except ClientError α)) :=
  match p with
  | pending none => .ok (pending (some listener), none)
  | completed (some result) => .ok (completed none, some result)
  | pending (some _) => .error listenerAttached
  | completed none => .error listenerAttached

@[simp]
theorem isDone_new : (new : Promise α ℓ).isDone = false := rfl

end Promise

end PubSub
