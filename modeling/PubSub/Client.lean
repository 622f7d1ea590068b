import PubSub.Core.Handle
import PubSub.Mailbox
import PubSub.Promise
import PubSub.SendWindow

/-! # Clients

A client is the core together with what the application shares with it: the
mailbox, the state that watchers see, the send window, and the promises. Calls
of the application check their arguments and post a signal; handling a signal
settles promises and gives callbacks to run.
-/

namespace PubSub

/-- A callback of the application, with listeners of type `ℓ` on its promises. -/
inductive Task (ℓ : Type) where
  | notification (n : Notification)
  | settled (listener : ℓ) (result : Outcome)
  /-- Does nothing; its end shows that the callbacks before it have run. -/
  | flush

/-- What the end of a callback is reported for. -/
inductive Completion where
  | failure
  | delivery (acknowledge : Option PendingDelivery)
  | flush
  deriving DecidableEq, Repr

/-- The signal at the end of a callback, if there is one. -/
def Completion.signal? : Completion → Outcome → Option Signal
  | failure, .ok _ => none
  | failure, .error e => some (.callbackFailed e)
  | delivery acknowledge, .ok _ => acknowledge.map .autoConfirm
  | delivery _, .error e => some (.callbackFailed e)
  | flush, _ => some .flushed

structure Job (ℓ : Type) where
  task : Task ℓ
  completion : Completion

structure SendOptions where
  qos : Qos := .atMostOnce
  ttl : Option Duration := none
  properties : Properties := []
  deriving DecidableEq, Repr, Inhabited

structure SubscribeOptions where
  qos : Qos := .atMostOnce
  credit : Nat := 1024
  autoConfirm : Bool := true
  ttl : Duration := .zero
  deriving DecidableEq, Repr, Inhabited

structure Client (ℓ : Type) where
  id : String
  core : Core
  mailbox : Mailbox Signal
  /-- The state that was published last. -/
  state : ClientState
  window : SendWindow
  /-- The application's promises, by number. -/
  promises : List (Promise Unit ℓ)
  /-- The deliveries that the application has confirmed. -/
  confirmed : List ConfirmationId

namespace Client

variable {ℓ : Type}

def new (id : String) (threshold : Nat) : Client ℓ where
  id := id
  core := {}
  mailbox := .empty
  state := .stopped
  window := .new threshold
  promises := []
  confirmed := []

def post (c : Client ℓ) (s : Signal) : Client ℓ := { c with mailbox := c.mailbox.post s }

def newPromise (c : Client ℓ) : PromiseId × Client ℓ :=
  (c.promises.length, { c with promises := c.promises ++ [.new] })

def start (c : Client ℓ) : PromiseId × Client ℓ :=
  let (p, c) := c.newPromise
  (p, c.post (.start (some p)))

def stop (c : Client ℓ) : PromiseId × Client ℓ :=
  let (p, c) := c.newPromise
  (p, c.post (.stop p))

/-- Work is turned down at the call while the client is stopping or stopped. -/
def checkNotStopped (c : Client ℓ) : Outcome :=
  if c.state.work = .reject then .error .clientStopped else .ok ()

/-- Sends a message; also tells whether there is room for another one. -/
def send (c : Client ℓ) (topic : String) (payload : Payload) (options : SendOptions) :
    Except ClientError ((PromiseId × Bool) × Client ℓ) := do
  validateDestination topic
  c.checkNotStopped
  let (p, c) := c.newPromise
  let (accepting, window) := c.window.enter
  let message : OutboundMessage :=
    { topic := topic, payload := payload, qos := options.qos, ttl := options.ttl,
      properties := options.properties }
  pure ((p, accepting), { c with window := window }.post (.work (.send ⟨message, p⟩)))

/-- Subscriptions without a guarantee are confirmed by themselves. -/
def subscribe (c : Client ℓ) (topic : Topic) (options : SubscribeOptions)
    (listener : ListenerId) : Except ClientError (PromiseId × Client ℓ) := do
  topic.validate
  c.checkNotStopped
  let (p, c) := c.newPromise
  let params : SubscribeParams :=
    { topic := topic, qos := options.qos, credit := options.credit,
      autoConfirm := options.autoConfirm || options.qos = .atMostOnce,
      ttlSeconds := options.ttl.roundedSeconds }
  pure (p, c.post (.work (.subscribe ⟨params, listener, p⟩)))

/-- Only a time to live of zero can be asked for: the server discards the subscription at once. -/
def unsubscribe (c : Client ℓ) (topic : Topic) (ttl : Option Duration) :
    Except ClientError (PromiseId × Client ℓ) := do
  let zeroTtl ← match ttl with
    | none => pure false
    | some d =>
      if d = .zero then pure true
      else .error (.argument s!"unsubscribe ttl must be zero, got {d.millis}ms")
  topic.validate
  c.checkNotStopped
  let (p, c) := c.newPromise
  pure (p, c.post (.work (.unsubscribe ⟨topic, zeroTtl, p⟩)))

/-- Confirms a delivery, which its listener may do once if the delivery asks for it. -/
def confirm (c : Client ℓ) (d : Delivery) : Except ClientError (PromiseId × Client ℓ) :=
  match d.confirmation with
  | none =>
    .error (.state "delivery does not need confirmation (at-most-once or auto-confirmed)")
  | some id =>
    if c.confirmed.contains id then .error (.state "delivery already confirmed")
    else
      let (p, c) := c.newPromise
      .ok (p, { c with confirmed := id :: c.confirmed }.post (.confirm id p))

/-- Attaches a listener to a promise; gives its callback if the promise has a result. -/
def listen (c : Client ℓ) (p : PromiseId) (listener : ℓ) :
    Except ClientError (List (Job ℓ) × Client ℓ) := do
  let (promise, result) ← (c.promises.getD p .new).attach listener
  let jobs := result.toList.map fun r => ⟨.settled listener r, .failure⟩
  pure (jobs, { c with promises := c.promises.set p promise })

/-- Completes a promise; gives the callback of its listener. A second result is passed over. -/
def settle (c : Client ℓ) (p : PromiseId) (result : Outcome) : List (Job ℓ) × Client ℓ :=
  match (c.promises.getD p .new).complete result with
  | .error _ => ([], c)
  | .ok (promise, listener) =>
    (listener.toList.map fun l => ⟨.settled l result, .failure⟩,
      { c with promises := c.promises.set p promise })

/-- The callback of a drained window, if it is due. -/
def drainJobs (due : Bool) : List (Job ℓ) :=
  if due then [⟨.notification .drain, .failure⟩] else []

def notificationJob (n : Notification) : Job ℓ :=
  match n with
  | .delivery _ _ acknowledge => ⟨.notification n, .delivery acknowledge⟩
  | _ => ⟨.notification n, .failure⟩

/-- The part of an effect that concerns the client itself, and the callbacks it submits. -/
def perform (c : Client ℓ) : Effect → List (Job ℓ) × Client ℓ
  | .request _ => ([], c)
  | .settle p result => c.settle p result
  | .finishSend p result =>
    let (jobs, c) := c.settle p result
    let (due, window) := c.window.leave
    (jobs ++ drainJobs due, { c with window := window })
  | .takeDrain =>
    let (due, window) := c.window.takeDrain
    (drainJobs due, { c with window := window })
  | .notify n => ([notificationJob n], c)
  | .flush => ([⟨.flush, .flush⟩], c)
  | .release => ([], c)
  | .publish state => ([], { c with state := state })
  | .post s => ([], c.post s)

def inspect (c : Client ℓ) : Inspected :=
  .record "Client" [
    ("id", .text c.id),
    ("state", .atom c.state.name),
    ("undrained_sends", .nat c.window.undrained)]

end Client

end PubSub
