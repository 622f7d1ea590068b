import PubSub.Message
import PubSub.Delivery
import PubSub.Endpoint

/-! # Work and signals

Work is what the application asks of the session: sends, subscribes and
unsubscribes, each with the promise that reports its outcome. A signal is
anything that can happen to a client; signals are handled one by one.
-/

namespace PubSub

/-- A promise that the application holds. -/
abbrev PromiseId := Nat

/-- A listener that the application gave to a subscribe. -/
abbrev ListenerId := Nat

structure SendRequest where
  message : OutboundMessage
  promise : PromiseId
  deriving DecidableEq, Repr

structure SubscribeRequest where
  params : SubscribeParams
  listener : ListenerId
  promise : PromiseId
  deriving DecidableEq, Repr

structure UnsubscribeRequest where
  topic : Topic
  /-- The server is to discard the subscription at once. -/
  zeroTtl : Bool
  promise : PromiseId
  deriving DecidableEq, Repr

inductive Work where
  | send (request : SendRequest)
  | subscribe (request : SubscribeRequest)
  | unsubscribe (request : UnsubscribeRequest)
  deriving DecidableEq, Repr

def Work.promise : Work → PromiseId
  | send r => r.promise
  | subscribe r => r.promise
  | unsubscribe r => r.promise

inductive Signal where
  /-- Without a promise where the client resumes a start that came while it stopped. -/
  | start (promise : Option PromiseId)
  | stop (promise : PromiseId)
  | work (w : Work)
  | endpointAnswered (result : Except ClientError EndpointAnswer)
  | opened (connection : ConnectionId) (result : Outcome)
  | closed (connection : ConnectionId)
  | sent (connection : ConnectionId) (id : Nat) (result : Outcome)
  | subscribed (connection : ConnectionId) (topic : Topic) (result : Outcome)
  | unsubscribed (connection : ConnectionId) (topic : Topic) (result : Outcome)
  | timerEnded (timer : Nat) (popped : Bool)
  | delivered (connection : ConnectionId) (message : InboundMessage)
  | disconnected (connection : ConnectionId) (cause : ClientError)
  /-- The application confirmed a tracked delivery. -/
  | confirm (id : ConfirmationId) (promise : PromiseId)
  /-- The listener of a delivery that is confirmed by itself has finished. -/
  | autoConfirm (delivery : PendingDelivery)
  /-- Every callback queued before the flush has run. -/
  | flushed
  | subscriptionsRemade
  | callbackFailed (cause : ClientError)
  deriving DecidableEq, Repr

end PubSub
