import PubSub.Work

/-! # Subscriptions

A row tracks one topic from its first subscribe to its end. While a subscribe
or unsubscribe is under way, further operations on the topic wait in the row,
so that they run in the order of the calls. Rows are in the order of their
topics.
-/

namespace PubSub

inductive SubscriptionState where
  /-- A subscribe is under way. -/
  | attaching
  /-- The server has acknowledged the subscription. -/
  | established
  /-- An unsubscribe is under way. -/
  | detaching
  /-- The connection was lost; the row is subscribed anew after the next one. -/
  | broken
  deriving DecidableEq, Repr, Inhabited

def SubscriptionState.name : SubscriptionState → String
  | attaching => "Attaching"
  | established => "Established"
  | detaching => "Detaching"
  | broken => "Broken"

structure Subscription where
  state : SubscriptionState
  params : SubscribeParams
  listener : ListenerId
  /-- Operations that wait for the one under way. -/
  pending : List Work
  /-- The application's subscribe under way. -/
  subscribing : Option PromiseId
  /-- The application's unsubscribe under way. -/
  unsubscribing : Option UnsubscribeRequest
  /-- Subscribes that a lost connection interrupted. -/
  awaiting : List PromiseId
  /-- The subscribe under way renews the row after a lost connection. -/
  remaking : Bool
  /-- The server has acknowledged the row at least once. -/
  establishedOnce : Bool
  deriving DecidableEq, Repr

namespace Subscription

def new (request : SubscribeRequest) : Subscription where
  state := .attaching
  params := request.params
  listener := request.listener
  pending := []
  subscribing := some request.promise
  unsubscribing := none
  awaiting := []
  remaking := false
  establishedOnce := false

def topic (row : Subscription) : Topic := row.params.topic

/-- Nothing waits, and no unsubscribe or lost connection is in the way. -/
def isIdle (row : Subscription) : Bool :=
  row.pending.isEmpty && (row.state = .established || row.state = .attaching)

/-- The application's promises that the row holds, under way or waiting. -/
def promises (row : Subscription) : List PromiseId :=
  row.subscribing.toList ++ row.awaiting ++ (row.unsubscribing.map (·.promise)).toList ++
    row.pending.map Work.promise

/-- The row after its connection is lost. A subscribe under way stays with the row. -/
def interrupt (row : Subscription) : Subscription :=
  { row with
    state := .broken
    subscribing := none
    unsubscribing := none
    awaiting := row.awaiting ++ row.subscribing.toList
    pending := []
    remaking := false }

/-- The operations of the row that have to be done again on another connection, in order. -/
def recovered (row : Subscription) : List Work :=
  row.unsubscribing.toList.map .unsubscribe ++ row.pending

def isBroken (row : Subscription) : Bool := row.state = .broken

def remake (row : Subscription) : Subscription :=
  if row.isBroken then { row with state := .attaching, remaking := true } else row

end Subscription

/-- The rows of a client, in the order of their topics, one for each topic. -/
abbrev Subscriptions := List Subscription

namespace Subscriptions

def find? (rows : Subscriptions) (topic : Topic) : Option Subscription :=
  List.find? (fun row => row.topic = topic) rows

/-- Puts a row at its place; a row of the same topic gives way. -/
def put (row : Subscription) : Subscriptions → Subscriptions
  | [] => [row]
  | r :: rest =>
    if row.topic.before r.topic then row :: r :: rest
    else if row.topic = r.topic then row :: rest
    else r :: put row rest

def erase (rows : Subscriptions) (topic : Topic) : Subscriptions :=
  rows.filter fun row => row.topic ≠ topic

def interrupt (rows : Subscriptions) : Subscriptions := rows.map Subscription.interrupt

def recovered (rows : Subscriptions) : List Work := rows.flatMap Subscription.recovered

def remake (rows : Subscriptions) : Subscriptions := rows.map Subscription.remake

/-- What has to be asked of the server to renew the broken rows. -/
def remakeParams (rows : Subscriptions) : List SubscribeParams :=
  (rows.filter (·.isBroken)).map (·.params)

end Subscriptions

end PubSub
