import PubSub.Rotation
import PubSub.Session.Step

/-! # The world of a session

The world holds the client, the callbacks that wait to be run, and what the
services have been asked. Playing a step changes the world; a breakdown ends
what is being done, and whatever has happened until then stays.
-/

namespace PubSub

namespace Session

/-- A listener of a promise. -/
structure PromiseListener where
  /-- The number of the promise in the session. -/
  number : Nat
  hooks : List Hook

/-- A listener of a subscription. -/
structure SubscriptionListener where
  /-- Of the callbacks it has only the one for messages. -/
  minimal : Bool
  hooks : List Hook

/-- What a service will have to say about a call. -/
inductive Reply where
  | opened (connection : ConnectionId)
  | closed (connection : ConnectionId)
  | sent (connection : ConnectionId) (id : Nat)
  | subscribed (connection : ConnectionId) (topic : Topic)
  | unsubscribed (connection : ConnectionId) (topic : Topic)
  | timerEnded (timer : Nat)
  deriving DecidableEq, Repr

namespace Reply

def kind : Reply → CallKind
  | opened _ => .connect
  | closed _ => .disconnect
  | sent .. => .send
  | subscribed .. => .subscribe
  | unsubscribed .. => .unsubscribe
  | timerEnded _ => .schedule

def signal (result : Outcome) : Reply → Signal
  | opened connection => .opened connection result
  | closed connection => .closed connection
  | sent connection id => .sent connection id result
  | subscribed connection topic => .subscribed connection topic result
  | unsubscribed connection topic => .unsubscribed connection topic result
  | timerEnded timer => .timerEnded timer result.toBool

end Reply

structure ServiceCall where
  reply : Reply
  /-- The number among the calls of its kind; a call that broke down has none. -/
  number : Option Nat
  isDone : Bool
  deriving DecidableEq, Repr

def ServiceCall.new (reply : Reply) : ServiceCall := ⟨reply, none, false⟩

structure World where
  client : Client PromiseListener
  /-- The application holds the client. -/
  held : Bool := true
  /-- Nothing is left that could handle a signal. -/
  gone : Bool := false
  /-- Callbacks that wait to be run. -/
  queue : List (Job PromiseListener) := []
  log : List Event := []
  /-- The client has published its state. -/
  published : Bool := false
  /-- The promises that the application has been given, in order. -/
  promises : List PromiseId := []
  /-- The deliveries that listeners have received, in order. -/
  deliveries : List Delivery := []
  listeners : List SubscriptionListener := []
  /-- The hooks of service calls and of callbacks without a listener of their own. -/
  hooks : List Hook := []
  switches : Switches := .initial
  /-- The service calls that are to break down. -/
  faults : List Occasion := []
  scriptedLookups : List (Except ClientError EndpointAnswer) := []
  /-- For every lookup whether it has been answered. -/
  lookups : List Bool := []
  calls : List ServiceCall := []
  connections : List ConnectionId := []
  /-- Answers lookups if there is one. -/
  rotation : Option Rotation := none
  /-- The application does not listen to the client. -/
  unheard : Bool := false
  /-- The callback service takes no notice of the end of a session. -/
  unreleased : Bool := false

/-- An action on the world, which may end in a breakdown with a text. -/
abbrev Play := ExceptT String (StateM World)

def record (e : Event) : Play Unit := modify fun w => { w with log := w.log ++ [e] }

def World.isOn (w : World) (s : Switch) : Bool := w.switches.contains s

/-- Posts a signal to the client if there is still one. -/
def World.post (w : World) (s : Signal) : World :=
  if w.gone then w else { w with client := w.client.post s }

def post (s : Signal) : Play Unit := modify (·.post s)

/-- Submits a callback, which waits to be run or is turned down. -/
def submit (job : Job PromiseListener) : Play Unit := do
  let w ← get
  if w.isOn .rejectCallbacks then
    record .rejected
    (job.completion.signal? (.error shutDown)).forM post
  else set { w with queue := w.queue ++ [job] }
where
  /-- The error of every callback that is turned down. -/
  shutDown : ClientError := .stopped "callback service is shut down"

/-- Plays the steps of a hook. -/
def playSteps (play : Step → Play Answer) (occasion : Occasion) (steps : List Step) :
    Play Unit :=
  steps.forM fun
    | .panic text => throw text
    | step => do
      let answer ← play step
      record (.hook occasion answer)

/-- Plays the hook of the next occurrence of an occasion. -/
def playHook (play : Step → Play Answer) (occasion : Occasion) : Play Unit := do
  let w ← get
  let (steps, hooks) := takeHook occasion w.hooks
  set { w with hooks := hooks }
  playSteps play occasion steps

end Session

end PubSub
