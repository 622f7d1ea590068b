import PubSub.Effect
import PubSub.Subscription

/-! # The core of a client

The core owns the state of the session. Handling a signal is a turn: a pure
step that changes the core and issues effects in order. A turn records with
each effect the core at that moment, because a service that breaks down ends
the turn there.
-/

namespace PubSub

/-- A send that the transport has not answered yet. -/
structure OutstandingSend where
  id : Nat
  connection : ConnectionId
  request : SendRequest
  deriving DecidableEq, Repr

/-- A delivery that the application has to confirm. -/
structure TrackedDelivery where
  id : ConfirmationId
  delivery : PendingDelivery
  deriving DecidableEq, Repr

structure Core where
  phase : Phase := .stopped
  endpoint : Option Endpoint := none
  connection : Option ConnectionId := none
  /-- How many connections have been asked for. -/
  connections : Nat := 0
  retryDelay : Duration := .zero
  timer : Option Nat := none
  /-- How many timers have been asked for. -/
  timers : Nat := 0
  lastError : Option ClientError := none
  stoppedByUser : Bool := false
  pendingStarts : List PromiseId := []
  pendingStops : List PromiseId := []
  /-- Work that waits for a connection. -/
  pendingWork : List Work := []
  /-- How many sends have been issued. -/
  sends : Nat := 0
  /-- Sends without an answer, in the order of their issue. -/
  outstanding : List OutstandingSend := []
  subscriptions : Subscriptions := []
  remakesOutstanding : Nat := 0
  /-- How many deliveries have been tracked. -/
  tracked : Nat := 0
  confirmations : List TrackedDelivery := []
  deriving DecidableEq, Repr, Inhabited

namespace Core

def isCurrent (c : Core) (connection : ConnectionId) : Bool := c.connection = some connection

/-- Remembers the first cause of a stop or retry; after the user's stop there is none. -/
def recordError (cause : ClientError) (c : Core) : Core :=
  if c.stoppedByUser || c.lastError.isSome then c else { c with lastError := some cause }

end Core

/-- An effect and the core at the moment of its issue. -/
structure Issued where
  effect : Effect
  core : Core
  deriving DecidableEq, Repr

/-- A core in the course of handling a signal, with the effects issued so far. -/
structure Turn where
  core : Core
  issued : List Issued
  deriving DecidableEq, Repr

namespace Turn

def begin (c : Core) : Turn := ⟨c, []⟩

def effects (t : Turn) : List Effect := t.issued.map (·.effect)

def update (t : Turn) (f : Core → Core) : Turn := { t with core := f t.core }

def emit (t : Turn) (e : Effect) : Turn :=
  { t with issued := t.issued ++ [⟨e, t.core⟩] }

def request (t : Turn) (r : Request) : Turn := t.emit (.request r)

def notify (t : Turn) (n : Notification) : Turn := t.emit (.notify n)

def post (t : Turn) (s : Signal) : Turn := t.emit (.post s)

def settle (result : Outcome) (t : Turn) (promise : PromiseId) : Turn :=
  t.emit (.settle promise result)

def settleAll (t : Turn) (promises : List PromiseId) (result : Outcome) : Turn :=
  promises.foldl (settle result) t

def finishSend (t : Turn) (promise : PromiseId) (result : Outcome) : Turn :=
  t.emit (.finishSend promise result)

def putRow (t : Turn) (row : Subscription) : Turn :=
  t.update fun c => { c with subscriptions := c.subscriptions.put row }

def eraseRow (t : Turn) (topic : Topic) : Turn :=
  t.update fun c => { c with subscriptions := c.subscriptions.erase topic }

@[simp]
theorem core_begin (c : Core) : (begin c).core = c := rfl

@[simp]
theorem effects_begin (c : Core) : (begin c).effects = [] := rfl

@[simp]
theorem core_update (t : Turn) (f : Core → Core) : (t.update f).core = f t.core := rfl

@[simp]
theorem effects_update (t : Turn) (f : Core → Core) : (t.update f).effects = t.effects := rfl

@[simp]
theorem core_emit (t : Turn) (e : Effect) : (t.emit e).core = t.core := rfl

@[simp]
theorem effects_emit (t : Turn) (e : Effect) : (t.emit e).effects = t.effects ++ [e] := by
  simp [effects, emit]

end Turn

end PubSub
