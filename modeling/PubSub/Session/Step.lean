import PubSub.Client
import PubSub.Delivery.Document

/-! # The steps of a session

A session is a script for a client and everything around it: the application
that calls the client, the services that answer it, the server that sends
deliveries. Callbacks and service calls may have steps of their own.
-/

namespace PubSub

namespace Session

/-- A callback or a service call that can have steps of its own. -/
inductive Occasion where
  | starting
  | started
  | restarted
  | retrying
  | stopped
  | drain
  | message
  | malformed
  | unsubscribed
  /-- A promise has its result. -/
  | settled
  | lookup
  | report
  | connect
  | disconnect
  | send
  | subscribe
  | unsubscribe
  | schedule
  | confirm
  | release
  deriving DecidableEq, Repr

/-- The service calls that are answered later, by kind. -/
inductive CallKind where
  | connect
  | disconnect
  | send
  | subscribe
  | unsubscribe
  | schedule
  deriving DecidableEq, Repr

/-- What can be turned on and off in the services. -/
inductive Switch where
  /-- Connections are opened at once. -/
  | autoConnect
  /-- Connections are closed at once. -/
  | autoDisconnect
  /-- Sends, subscribes and unsubscribes are acknowledged at once. -/
  | autoAcknowledge
  /-- Lookups wait to be answered. -/
  | holdLookups
  /-- Callbacks are turned down. -/
  | rejectCallbacks
  /-- A cancelled timer gets no answer. -/
  | keepTimers
  deriving DecidableEq, Repr

/-- The switches that are on. -/
abbrev Switches := List Switch

/-- Where a session begins. -/
def Switches.initial : Switches := [.autoConnect, .autoDisconnect]

def Switches.set (on : Switches) (switch : Switch) (value : Bool) : Switches :=
  let others := on.filter (· ≠ switch)
  if value then switch :: others else others

def Switches.setAll (on : Switches) (changes : List (Switch × Bool)) : Switches :=
  changes.foldl (fun on (switch, value) => Switches.set on switch value) on

/-- A call of the client that gives a promise. -/
inductive Ask where
  | start
  | stop
  | send (topic : String) (payload : Payload) (options : SendOptions)
  /-- Sends a document; there is none if its value cannot be written. -/
  | sendDocument (topic : String) (document : Option Json) (options : SendOptions)
  /-- The listener is told of messages only if it is minimal. -/
  | subscribe (topic : Topic) (options : SubscribeOptions) (minimal : Bool)
  | unsubscribe (topic : Topic) (ttl : Option Duration)
  deriving Repr

mutual

/-- A step; where an index is left out the newest is meant. -/
inductive Step where
  /-- Calls the client. The first hooks are those of a subscribe's listener, the others those
  of the promise, which without them is not listened to. -/
  | ask (ask : Ask) (listener : List Hook) (promise : Option (List Hook))
  | confirm (delivery : Option Nat) (promise : Option (List Hook))
  | listen (promise : Nat) (hooks : List Hook)
  | isDone (promise : Nat)
  /-- Reads the document in a delivery. -/
  | read (delivery : Option Nat) (kind : DocumentKind)
  | inspectDelivery (delivery : Option Nat)
  | inspect
  | set (changes : List (Switch × Bool))
  /-- The next service call of the occasion breaks down. -/
  | fault (occasion : Occasion)
  /-- The answer of a lookup to come. -/
  | scriptLookup (answer : Except ClientError EndpointAnswer)
  | answerLookup (lookup : Option Nat) (answer : Except ClientError EndpointAnswer)
  | answer (kind : CallKind) (call : Option Nat) (result : Outcome)
  | deliver (connection : Option Nat) (message : InboundMessage)
  | disconnect (connection : Option Nat) (cause : ClientError)
  /-- Runs so many callbacks, also those that come meanwhile. -/
  | run (count : Nat)
  /-- The application lets go of the client. -/
  | drop
  /-- The callback or service call that this step belongs to breaks down. -/
  | panic (text : String)
  | unknown

/-- The steps of one occurrence of an occasion. -/
inductive Hook where
  | mk (occasion : Occasion) (steps : List Step)

end

instance : Inhabited Step := ⟨.unknown⟩

def Hook.occasion : Hook → Occasion
  | .mk occasion _ => occasion

def Hook.steps : Hook → List Step
  | .mk _ steps => steps

/-- The steps of the next occurrence of an occasion, and the hooks that are left. -/
def takeHook (occasion : Occasion) : List Hook → List Step × List Hook
  | [] => ([], [])
  | h :: rest =>
    if h.occasion = occasion then (h.steps, rest)
    else
      let (steps, left) := takeHook occasion rest
      (steps, h :: left)

mutual

/-- The number of steps in a step, itself and those of its hooks included. -/
def Step.size : Step → Nat
  | .ask _ listener none => 1 + hookSizes listener
  | .ask _ listener (some promise) => 1 + hookSizes listener + hookSizes promise
  | .confirm _ (some promise) => 1 + hookSizes promise
  | .listen _ hooks => 1 + hookSizes hooks
  | _ => 1

def Hook.size : Hook → Nat
  | .mk _ steps => stepSizes steps

def hookSizes : List Hook → Nat
  | [] => 0
  | h :: rest => h.size + hookSizes rest

def stepSizes : List Step → Nat
  | [] => 0
  | s :: rest => s.size + stepSizes rest

end

/-- Why a step is refused. -/
inductive Refusal where
  | noCall
  | noConnection
  | noPromise
  | noDelivery
  /-- The delivery holds no document. -/
  | noDocument
  | noStep
  deriving DecidableEq, Repr

/-- The answer to a step. -/
inductive Answer where
  | ok
  | failed (cause : ClientError)
  /-- The number of a promise; a send also tells whether there is room for another one. -/
  | promise (number : Nat) (accepting : Option Bool)
  | count (n : Nat)
  | bool (b : Bool)
  | text (s : String)
  | document (j : Json)
  /-- The client's name and its structural form. -/
  | client (id : String) (inspected : String)
  /-- The application has let go of the client. -/
  | dropped
  | refused (cause : Refusal)

/-- What services and listeners see. -/
inductive Event where
  | lookup (number : Nat)
  /-- What a list of endpoints gave for a lookup. -/
  | lookupAnswered (result : Except ClientError EndpointAnswer)
  | report (endpoint : Endpoint)
  | connect (number : Nat) (connection : ConnectionId) (endpoint : Endpoint) (clientId : String)
  | disconnect (number : Nat) (connection : ConnectionId)
  | send (number : Nat) (connection : ConnectionId) (message : OutboundMessage)
  | subscribe (number : Nat) (connection : ConnectionId) (params : SubscribeParams)
  | unsubscribe (number : Nat) (connection : ConnectionId) (topic : Topic) (zeroTtl : Bool)
  | schedule (number : Nat) (delay : Duration)
  | cancel (number : Option Nat)
  | confirm (connection : ConnectionId) (tag : Nat)
  | rejected
  | released
  | starting
  | started
  | restarted
  | retrying (cause : Option ClientError)
  | stopped (cause : Option ClientError)
  | drain
  /-- A listener received a delivery; deliveries have numbers. -/
  | delivered (listener : ListenerId) (number : Nat) (delivery : Delivery)
  | unsubscribed (listener : ListenerId) (topic : Topic) (error : Option ClientError)
  | settled (promise : Nat) (result : Outcome)
  /-- A hook played a step. -/
  | hook (occasion : Occasion) (answer : Answer)

end Session

end PubSub
