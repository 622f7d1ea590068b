/-! # Mailboxes

Messages wait in the order in which they were posted, and one is handled at a
time: a post into an idle mailbox drains it, a post into a mailbox that is being
drained only adds to the queue.
-/

namespace PubSub

structure Mailbox (μ : Type) where
  waiting : List μ
  draining : Bool
  deriving Repr

namespace Mailbox

variable {μ : Type}

def empty : Mailbox μ := ⟨[], false⟩

instance : Inhabited (Mailbox μ) := ⟨empty⟩

/-- Adds a message at the end. The mailbox is being drained from now on. -/
def post (m : Mailbox μ) (x : μ) : Mailbox μ :=
  ⟨m.waiting ++ [x], true⟩

/-- The first message and the mailbox without it; a mailbox without messages comes to rest. -/
def next (m : Mailbox μ) : Option μ × Mailbox μ :=
  match m.waiting with
  | [] => (none, ⟨[], false⟩)
  | x :: rest => (some x, ⟨rest, true⟩)

@[simp]
theorem waiting_post (m : Mailbox μ) (x : μ) : (m.post x).waiting = m.waiting ++ [x] := rfl

end Mailbox

end PubSub
