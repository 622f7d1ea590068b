import PubSub.Phase
import PubSub.Work

/-! # Effects of a client

What a client asks for while it handles a signal: requests to its services,
results for the application's promises, callbacks to be run, signals to itself.
No effect gives an answer; what the services have to say comes as a signal.
-/

namespace PubSub

/-- A request to the services around a client. -/
inductive Request where
  | lookup
  /-- A connection to the endpoint was established. -/
  | report (endpoint : Endpoint)
  | connect (connection : ConnectionId) (endpoint : Endpoint)
  | disconnect (connection : ConnectionId)
  | send (connection : ConnectionId) (id : Nat) (message : OutboundMessage)
  | subscribe (connection : ConnectionId) (params : SubscribeParams)
  | unsubscribe (connection : ConnectionId) (topic : Topic) (zeroTtl : Bool)
  | confirm (connection : ConnectionId) (tag : Nat)
  | schedule (timer : Nat) (delay : Duration)
  | cancel (timer : Nat)
  deriving DecidableEq, Repr

/-- A callback of the application. -/
inductive Notification where
  | starting
  | started
  | restarted
  | retrying (cause : Option ClientError)
  | stopped (cause : Option ClientError)
  | drain
  /-- A delivery, to be acknowledged once its listener has finished if it says so. -/
  | delivery (listener : ListenerId) (delivery : Delivery) (acknowledge : Option PendingDelivery)
  | unsubscribed (listener : ListenerId) (topic : Topic) (error : Option ClientError)
  deriving DecidableEq, Repr

inductive Effect where
  | request (r : Request)
  | settle (promise : PromiseId) (result : Outcome)
  /-- Settles the promise of a send and counts the send off the window. -/
  | finishSend (promise : PromiseId) (result : Outcome)
  /-- Notifies of drained sends if the window owes that. -/
  | takeDrain
  | notify (n : Notification)
  /-- Asks to be told when the callbacks before it have run. -/
  | flush
  /-- The callbacks of the session are over. -/
  | release
  | publish (state : ClientState)
  | post (signal : Signal)
  deriving DecidableEq, Repr

end PubSub
