import PubSub.Error
import PubSub.Mailbox

/-! # Scripted mailboxes

A scripted message names the messages that its handler posts, and how the
handler ends. A handler posts in the way of everyone else, so that a post into a
mailbox that nobody drains would be drained inside the handler. However the
handler ends, the drain goes on until the mailbox is empty.
-/

namespace PubSub

/-- How a handler ends. -/
inductive Ending where
  | returns
  | fails (cause : ClientError)
  | panics (text : String)
  deriving DecidableEq, Repr

/-- A message, the messages that its handler posts in order, and the end of its handler. -/
inductive ScriptedMessage (κ : Type) where
  | mk (id : κ) (posts : List (ScriptedMessage κ)) (ending : Ending)

namespace ScriptedMessage

variable {κ : Type}

instance [Inhabited κ] : Inhabited (ScriptedMessage κ) := ⟨mk default [] .returns⟩

def id : ScriptedMessage κ → κ
  | mk id _ _ => id

def posts : ScriptedMessage κ → List (ScriptedMessage κ)
  | mk _ posts _ => posts

def ending : ScriptedMessage κ → Ending
  | mk _ _ ending => ending

/-- What the handler posts. Without a handle on its mailbox it posts nothing. -/
def outbox (posting : Bool) (m : ScriptedMessage κ) : List (ScriptedMessage κ) :=
  if posting then m.posts else []

mutual

/-- The number of messages in a tree. -/
def size : ScriptedMessage κ → Nat
  | mk _ posts _ => 1 + sizes posts

def sizes : List (ScriptedMessage κ) → Nat
  | [] => 0
  | m :: rest => m.size + sizes rest

end

end ScriptedMessage

/-- What happens while a mailbox is drained. -/
inductive MailboxEvent (κ : Type) where
  | entered (id : κ)
  /-- The handler posted a message, after which so many were waiting. -/
  | posted (id : κ) (waiting : Nat)
  /-- The handler returned without a fault. -/
  | left (id : κ)
  deriving DecidableEq, Repr

/-- Empties a mailbox: what happens meanwhile, and the mailbox afterwards. -/
abbrev Drain (κ : Type) :=
  Mailbox (ScriptedMessage κ) → List (MailboxEvent κ) × Mailbox (ScriptedMessage κ)

namespace Mailbox

variable {κ : Type}

/-- A post adds a message, and drains a mailbox that is idle. -/
def postWith (drain : Drain κ) (box : Mailbox (ScriptedMessage κ)) (m : ScriptedMessage κ) :
    List (MailboxEvent κ) × Mailbox (ScriptedMessage κ) :=
  if box.draining then ([], box.post m) else drain (box.post m)

/-- Posts the messages of a handler in order. -/
def postAll (drain : Drain κ) (box : Mailbox (ScriptedMessage κ)) :
    List (ScriptedMessage κ) → List (MailboxEvent κ) × Mailbox (ScriptedMessage κ)
  | [] => ([], box)
  | m :: rest =>
    let (drained, box) := box.postWith drain m
    let (events, after) := box.postAll drain rest
    (drained ++ .posted m.id box.waiting.length :: events, after)

/-- Handles one message. The mailbox is in use while the handler posts, and however the handler
ends, it is the caller who goes on. -/
def handle (drain : Drain κ) (posting : Bool) (box : Mailbox (ScriptedMessage κ))
    (m : ScriptedMessage κ) : List (MailboxEvent κ) × Mailbox (ScriptedMessage κ) :=
  let (events, box) := box.postAll drain (m.outbox posting)
  let ending := if m.ending = .returns then [.left m.id] else []
  (.entered m.id :: events ++ ending, box)

/-- Handles messages until none waits, at most `fuel` of them. -/
def drainSteps (posting : Bool) : Nat → Drain κ
  | 0, box => ([], box)
  | fuel + 1, box =>
    match box.next with
    | (none, box) => ([], box)
    | (some m, box) =>
      let (events, box) := box.handle (drainSteps posting fuel) posting m
      let (later, box) := drainSteps posting fuel box
      (events ++ later, box)

/-- Handles messages until none waits. -/
def drain (posting : Bool) : Drain κ := fun box =>
  drainSteps posting (ScriptedMessage.sizes box.waiting + 1) box

/-- A post from outside. -/
def receive (posting : Bool) (box : Mailbox (ScriptedMessage κ)) (m : ScriptedMessage κ) :
    List (MailboxEvent κ) × Mailbox (ScriptedMessage κ) :=
  box.postWith (drain posting) m

end Mailbox

end PubSub
