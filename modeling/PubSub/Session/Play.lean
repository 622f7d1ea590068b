import PubSub.Delivery.Inspect
import PubSub.Options.Validation
import PubSub.Session.Callbacks

/-! # Playing a session

Every step has an answer. The script of a session is played from the beginning,
and after each step it is seen what was recorded and how the client stands.
-/

namespace PubSub

namespace Session

/-- Attaches a listener to a promise. -/
def attach (promise : PromiseId) (listener : PromiseListener) : Play Outcome := do
  let w ← get
  match w.client.listen promise listener with
  | .error e => pure (.error e)
  | .ok (jobs, client) => do
    set { w with client := client }
    jobs.forM submit
    pure (.ok ())

/-- The client after a call; if it is gone the call posts nothing. -/
def World.withClient (w : World) (client : Client PromiseListener) : World :=
  { w with client := if w.gone then { client with mailbox := .empty } else client }

/-- A call of the client that gives a promise. -/
abbrev ClientCall :=
  Client PromiseListener → Except ClientError ((PromiseId × Option Bool) × Client PromiseListener)

def plain (call : Client PromiseListener → PromiseId × Client PromiseListener) : ClientCall :=
  fun c =>
    let (p, c) := call c
    .ok ((p, none), c)

def checked
    (call : Client PromiseListener → Except ClientError (PromiseId × Client PromiseListener)) :
    ClientCall := fun c => do
  let (p, c) ← call c
  pure ((p, none), c)

def sending (topic : String) (payload : Payload) (options : SendOptions) : ClientCall :=
  fun c => do
    let ((p, accepting), c) ← c.send topic payload options
    pure ((p, some accepting), c)

/-- Makes a call on the client. -/
def make (call : ClientCall) : Play (Except ClientError (PromiseId × Option Bool)) := do
  let w ← get
  match call w.client with
  | .error e => pure (.error e)
  | .ok (given, client) => do
    set (w.withClient client)
    pure (.ok given)

/-- Calls the client. Its promise is numbered and listened to when the call has returned. -/
def callClient (play : Step → Play Answer) (call : ClientCall) (hooks : Option (List Hook)) :
    Play Answer := do
  match ← settling play (make call) with
  | .error e => pure (.failed e)
  | .ok (promise, accepting) => do
    let number := (← get).promises.length
    modify fun w => { w with promises := w.promises ++ [promise] }
    hooks.forM fun hooks => discard (settling play (attach promise ⟨number, hooks⟩))
    pure (.promise number accepting)

/-- An item, the newest if none is named. -/
def pick {α : Type} (items : List α) : Option Nat → Option α
  | none => items.getLast?
  | some index => items[index]?

/-- The call of the client that is asked for, with the listener if it is a subscribe. -/
def Ask.call (listener : ListenerId) : Ask → ClientCall
  | .start => plain Client.start
  | .stop => plain Client.stop
  | .send topic payload options => sending topic payload options
  | .sendDocument topic (some document) options => sending topic (.json document.write) options
  | .sendDocument _ none _ =>
    fun _ => .error (.argument "cannot serialize payload: key must be a string")
  | .subscribe topic options _ => checked (·.subscribe topic options listener)
  | .unsubscribe topic ttl => checked (·.unsubscribe topic ttl)

/-- The listener of a subscribe; it has a number even if the subscribe is refused. -/
def Ask.listener? (hooks : List Hook) : Ask → Option SubscriptionListener
  | .subscribe _ _ minimal => some ⟨minimal, hooks⟩
  | _ => none

def ask (play : Step → Play Answer) (a : Ask) (listener : List Hook)
    (hooks : Option (List Hook)) : Play Answer := do
  let w ← get
  if w.held then
    set { w with listeners := w.listeners ++ (a.listener? listener).toList }
    callClient play (a.call w.listeners.length) hooks
  else pure .dropped

/-- Answers with the outcome of an action whose signals are handled. -/
def settled (play : Step → Play Answer) (act : Play Outcome) : Play Answer := do
  match ← settling play act with
  | .ok _ => pure .ok
  | .error e => pure (.failed e)

def withDelivery (index : Option Nat) (f : Delivery → Play Answer) : Play Answer := do
  match pick (← get).deliveries index with
  | none => pure (.refused .noDelivery)
  | some d => f d

def withConnection (index : Option Nat) (f : ConnectionId → Play Answer) : Play Answer := do
  match pick (← get).connections index with
  | none => pure (.refused .noConnection)
  | some c => f c

def withPromise (number : Nat) (f : PromiseId → Play Answer) : Play Answer := do
  match (← get).promises[number]? with
  | none => pure (.refused .noPromise)
  | some p => f p

def readDelivery (kind : DocumentKind) (d : Delivery) : Answer :=
  match d.body with
  | .json document =>
    match kind.read document with
    | .ok j => .document j
    | .error e => .failed e
  | _ => .refused .noDocument

/-- One step; the steps of hooks are played by `play`. -/
def playStep (play : Step → Play Answer) : Step → Play Answer
  | .ask a listener hooks => ask play a listener hooks
  | .confirm delivery hooks =>
    withDelivery delivery fun d => callClient play (checked (·.confirm d)) hooks
  | .listen number hooks =>
    withPromise number fun p => settled play (attach p ⟨number, hooks⟩)
  | .isDone number => withPromise number fun p => do
    pure (.bool ((← get).client.promises.getD p .new).isDone)
  | .read delivery kind => withDelivery delivery fun d => pure (readDelivery kind d)
  | .inspectDelivery delivery => withDelivery delivery fun d => do
    pure (.text (d.inspect (← get).client.confirmed).line)
  | .inspect => do
    let w ← get
    pure (if w.held then .client w.client.id w.client.inspect.line else .dropped)
  | .set changes => do
    modify fun w => { w with switches := w.switches.setAll changes }
    pure .ok
  | .fault occasion => do
    modify fun w => { w with faults := w.faults ++ [occasion] }
    pure .ok
  | .scriptLookup answer => do
    modify fun w => { w with scriptedLookups := w.scriptedLookups ++ [answer] }
    pure .ok
  | .answerLookup lookup answer => do
    match pick (List.range (← get).lookups.length) lookup with
    | none => pure (.refused .noCall)
    | some index => settled play (completeLookup index answer)
  | .answer kind call result => do
    match (← get).callIndex? kind call with
    | none => pure (.refused .noCall)
    | some index => settled play (complete index result)
  | .deliver connection message => withConnection connection fun c => do
    settling play (post (.delivered c message))
    pure .ok
  | .disconnect connection cause => withConnection connection fun c => do
    settling play (post (.disconnected c cause))
    pure .ok
  | .run count => do
    let ran ← runQueue play count
    pure (.count ran)
  | .drop => do
    modify fun w => { w with held := false }
    rest
    pure .ok
  | .panic _ => pure (.refused .noStep)
  | .unknown => pure (.refused .noStep)

/-- Plays a step with hooks nested at most `depth` deep. -/
def play : (depth : Nat) → Step → Play Answer
  | 0, _ => pure (.refused .noStep)
  | depth + 1, step => playStep (play depth) step

/-- A session to be played. -/
structure Script where
  options : ClientOptions
  /-- The options of a list of endpoints that answers lookups. -/
  endpoints : Option ClientOptions
  switches : List (Switch × Bool)
  hooks : List Hook
  unheard : Bool
  unreleased : Bool
  steps : List Step

/-- The world before the first step. -/
def Script.world (isFile : FileCheck) (s : Script) : Except ClientError World := do
  let rotation ← s.endpoints.mapM Rotation.ofOptions
  let options ← s.options.validated isFile ""
  pure
    { client := Client.new (options.id.getD "") options.sendBackpressureThreshold
      switches := Switches.initial.setAll s.switches
      hooks := s.hooks
      rotation := rotation
      unheard := s.unheard
      unreleased := s.unreleased }

/-- How a client stands. -/
structure View where
  state : ClientState
  undrained : Nat
  subscriptions : List (Topic × SubscriptionState)
  /-- The client has published its state during the step. -/
  published : Bool
  deriving DecidableEq, Repr

def World.view (w : World) : View where
  state := w.client.state
  undrained := w.client.window.undrained
  subscriptions := w.client.core.subscriptions.map fun row => (row.topic, row.state)
  published := w.published

/-- What a step brought about. -/
structure Entry where
  answer : Answer
  log : List Event
  queued : Nat
  /-- How the client stands, unless the application has let go of it. -/
  view : Option View

/-- Plays one step of a script from a world with an empty record. A breakdown goes no further
than the callback or the signal that it belongs to. -/
def World.play (depth : Nat) (w : World) (step : Step) : Entry × World :=
  let (answer, w) := (Session.play depth step).run.run { w with log := [], published := false }
  (⟨answer.toOption.getD (.refused .noStep), w.log, w.queue.length,
      if w.held then some w.view else none⟩, w)

/-- Plays steps in order. -/
def World.playAll (depth : Nat) (w : World) : List Step → List Entry
  | [] => []
  | step :: rest =>
    let (entry, w) := w.play depth step
    entry :: w.playAll depth rest

/-- Plays a script. No hook runs twice, so that the number of its steps bounds nesting. -/
def Script.play (isFile : FileCheck) (s : Script) : Except ClientError (List Entry) := do
  let w ← s.world isFile
  pure (w.playAll (stepSizes s.steps + hookSizes s.hooks + 1) s.steps)

end Session

end PubSub
