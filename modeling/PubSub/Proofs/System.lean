import PubSub.Session.World

/-! # Runs of a client

A client lives among services that answer when they like, a server whose
deliveries and disconnects come at any time, callbacks that end in any order,
and an application that calls whenever it wants to. A move is one thing that
happens. The effects of a turn are performed one by one, and other moves may
come in between.
-/

namespace PubSub

open Session (Reply)

/-- What a service will have to say about a request. A lookup has an answer of its own kind. -/
def Request.reply? : Request → Option Reply
  | .connect connection _ => some (.opened connection)
  | .disconnect connection => some (.closed connection)
  | .send connection id _ => some (.sent connection id)
  | .subscribe connection params => some (.subscribed connection params.topic)
  | .unsubscribe connection topic _ => some (.unsubscribed connection topic)
  | .schedule timer _ => some (.timerEnded timer)
  | .lookup | .report _ | .confirm .. | .cancel _ => none

namespace Effect

def reply? : Effect → Option Reply
  | request r => r.reply?
  | _ => none

def connection? : Effect → Option ConnectionId
  | request (.connect connection _) => some connection
  | _ => none

def delivery? : Effect → Option Delivery
  | notify (.delivery _ d _) => some d
  | _ => none

end Effect

/-- A call of the application that gives a promise. -/
inductive Call where
  | start
  | stop
  | send (topic : String) (payload : Payload) (options : SendOptions)
  | subscribe (topic : Topic) (options : SubscribeOptions) (listener : ListenerId)
  | unsubscribe (topic : Topic) (ttl : Option Duration)
  | confirm (d : Delivery)
  deriving DecidableEq, Repr

namespace Call

variable {ℓ : Type}

def make (c : Client ℓ) : Call → Except ClientError (PromiseId × Client ℓ)
  | start => .ok c.start
  | stop => .ok c.stop
  | send topic payload options =>
    (c.send topic payload options).map fun ((p, _), c) => (p, c)
  | subscribe topic options listener => c.subscribe topic options listener
  | unsubscribe topic ttl => c.unsubscribe topic ttl
  | confirm d => c.confirm d

/-- Only a delivery that was handed to a listener can be confirmed. -/
def isOffered (received : List Delivery) : Call → Bool
  | confirm d => received.contains d
  | _ => true

end Call

inductive Move (ℓ : Type) where
  /-- The application makes a call and is given a promise. The state that the call has seen may
  be out of date by the time its signal is posted. -/
  | call (seen : ClientState) (call : Call) (promise : PromiseId)
  | listen (promise : PromiseId) (listener : ℓ)
  | answerLookup (result : Except ClientError EndpointAnswer)
  | answer (reply : Reply) (result : Outcome)
  | deliver (connection : ConnectionId) (message : InboundMessage)
  | disconnect (connection : ConnectionId) (cause : ClientError)
  /-- A callback ends. -/
  | finish (job : Nat) (result : Outcome)
  /-- The turn of the next signal begins. -/
  | take (s : Signal)
  /-- The next effect of the turn is performed. -/
  | perform (e : Effect)

/-- A client and everything that is under way around it. -/
structure System (ℓ : Type) where
  client : Client ℓ
  /-- The effects of the turn that are still to be performed. -/
  agenda : List Effect := []
  /-- How many lookups have no answer yet. -/
  lookups : Nat := 0
  /-- Requests that have no answer yet, by what is to be answered. -/
  calls : List Reply := []
  /-- The connections that have been asked for. -/
  connections : List ConnectionId := []
  /-- Callbacks that have not ended. -/
  jobs : List (Job ℓ) := []
  /-- The deliveries that listeners have been handed. -/
  received : List Delivery := []

namespace System

variable {ℓ : Type}

def new (id : String) (threshold : Nat) : System ℓ := { client := .new id threshold }

def post (s : System ℓ) (x : Signal) : System ℓ := { s with client := s.client.post x }

def make (s : System ℓ) (seen : ClientState) (call : Call) (promise : PromiseId) :
    Option (System ℓ) :=
  match call.make { s.client with state := seen } with
  | .error _ => none
  | .ok (p, c) =>
    if p = promise then some { s with client := { c with state := s.client.state } } else none

def listen (s : System ℓ) (promise : PromiseId) (listener : ℓ) : Option (System ℓ) :=
  match s.client.listen promise listener with
  | .error _ => none
  | .ok (jobs, c) => some { s with client := c, jobs := s.jobs ++ jobs }

/-- A callback ends, and what its end is reported for is told. -/
def finish (s : System ℓ) (job : Nat) (completion : Completion) (result : Outcome) : System ℓ :=
  let s := { s with jobs := s.jobs.eraseIdx job }
  match completion.signal? result with
  | none => s
  | some x => s.post x

/-- The turn of a signal: the core changes at once, the effects are performed later. -/
def begin (s : System ℓ) (x : Signal) (rest : Mailbox Signal) : System ℓ :=
  let turn := s.client.core.handle x
  { s with
    client := { s.client with core := turn.core, mailbox := rest }
    agenda := turn.effects }

def perform (s : System ℓ) (e : Effect) (rest : List Effect) : System ℓ :=
  let (jobs, client) := s.client.perform e
  { client := client
    agenda := rest
    lookups := s.lookups + if e = .request .lookup then 1 else 0
    calls := s.calls ++ e.reply?.toList
    connections := s.connections ++ e.connection?.toList
    jobs := s.jobs ++ jobs
    received := s.received ++ e.delivery?.toList }

/-- The system after a move, if the move is possible. Every request has one answer. -/
def step (s : System ℓ) : Move ℓ → Option (System ℓ)
  | .call seen call promise =>
    if call.isOffered s.received then s.make seen call promise else none
  | .listen promise listener =>
    if promise < s.client.promises.length then s.listen promise listener else none
  | .answerLookup result =>
    if 0 < s.lookups then some { s.post (.endpointAnswered result) with lookups := s.lookups - 1 }
    else none
  | .answer reply result =>
    if reply ∈ s.calls then
      some { s.post (reply.signal result) with calls := s.calls.erase reply }
    else none
  | .deliver connection m =>
    if connection ∈ s.connections then some (s.post (.delivered connection m)) else none
  | .disconnect connection cause =>
    if connection ∈ s.connections then some (s.post (.disconnected connection cause)) else none
  | .finish job result =>
    match s.jobs[job]? with
    | none => none
    | some j => some (s.finish job j.completion result)
  | .take x =>
    if s.agenda = [] ∧ s.client.mailbox.next.1 = some x then
      some (s.begin x s.client.mailbox.next.2)
    else none
  | .perform e =>
    match s.agenda with
    | [] => none
    | e' :: rest => if e' = e then some (s.perform e rest) else none

def run (s : System ℓ) (moves : List (Move ℓ)) : Option (System ℓ) := moves.foldlM step s

def AtRest (s : System ℓ) : Prop := s.agenda = []

end System

end PubSub
