import PubSub.Core.Action

/-! # Handling signals

Each signal becomes a trigger, work, or a change of what the session tracks.
Answers and events of a connection that is no longer current, and answers of a
timer that is no longer set, change nothing.
-/

namespace PubSub

/-- The failure is that of a lost connection, and its loss will decide what becomes of this. -/
def Outcome.isRetryable : Outcome → Bool
  | .ok _ => false
  | .error e => e.isRetryable

namespace Turn

def onEndpointAnswered (t : Turn) (result : Except ClientError EndpointAnswer) : Turn :=
  match result with
  | .ok (.found endpoint) =>
    (t.update fun c => { c with endpoint := some endpoint }).fire .endpointFound
  | .ok (.retryAfter delay) =>
    (t.update fun c => { c with retryDelay := delay }).fire .endpointRetry
  | .error e => (t.update (Core.recordError e)).fire .endpointFatal

def onOpened (t : Turn) (connection : ConnectionId) (result : Outcome) : Turn :=
  if t.core.isCurrent connection then
    match result with
    | .ok _ => t.fire .openSucceeded
    | .error e =>
      (t.update fun c => ({ c with connection := none }).recordError e).fire
        (if e.isRetryable then .openRetryable else .openFatal)
  else t

def onClosed (t : Turn) (connection : ConnectionId) : Turn :=
  if t.core.isCurrent connection then
    (t.update fun c => { c with connection := none }).fire .connectionClosed
  else t

def onSent (t : Turn) (connection : ConnectionId) (id : Nat) (result : Outcome) : Turn :=
  match t.core.outstanding.find? (·.id = id) with
  | none => t
  | some send =>
    if send.connection ≠ connection then t
    else if Outcome.isRetryable result then t
    else
      (t.update fun c => { c with outstanding := c.outstanding.filter (·.id ≠ id) }).finishSend
        send.request.promise result

def remakeSettled (t : Turn) : Turn :=
  let t := t.update fun c => { c with remakesOutstanding := c.remakesOutstanding - 1 }
  if t.core.remakesOutstanding = 0 then t.post .subscriptionsRemade else t

/-- While stopping only the count of renewals goes on; the cleanup ends the row. -/
def onSubscribedStopping (t : Turn) (row : Subscription) : Turn :=
  if row.remaking then (t.putRow { row with remaking := false }).remakeSettled else t

/-- The answer to the renewal of a row. -/
def onRemade (t : Turn) (row : Subscription) (result : Outcome) : Turn :=
  match result with
  | .ok _ =>
    let row' : Subscription :=
      { row with
        state := .established, establishedOnce := true, remaking := false, awaiting := [] }
    ((t.putRow row').settleAll row.awaiting result).remakeSettled
  | .error e =>
    (((t.eraseRow row.topic).settleAll row.promises result).notify
      (.unsubscribed row.listener row.topic (some e))).remakeSettled

/-- The answer to the first subscribe of a row. -/
def onAttached (t : Turn) (row : Subscription) (result : Outcome) : Turn :=
  match result with
  | .ok _ =>
    let row' : Subscription :=
      { row with state := .established, establishedOnce := true, subscribing := none, pending := [] }
    ((t.putRow row').settleAll row.subscribing.toList result).replay row.pending
  | .error _ =>
    ((t.eraseRow row.topic).settleAll row.subscribing.toList result).replay row.pending

def onSubscribed (t : Turn) (connection : ConnectionId) (topic : Topic) (result : Outcome) :
    Turn :=
  if t.core.isCurrent connection then
    match t.core.subscriptions.find? topic with
    | none => t
    | some row =>
      if Outcome.isRetryable result then t
      else if t.core.phase.isStopping then t.onSubscribedStopping row
      else if row.remaking then t.onRemade row result
      else t.onAttached row result
  else t

/-- The answer to the unsubscribe of a row. A refused one leaves the row as it was before. -/
def onDetached (t : Turn) (row : Subscription) (result : Outcome) : Turn :=
  let request := (row.unsubscribing.map (·.promise)).toList
  match result with
  | .ok _ =>
    (((t.eraseRow row.topic).settleAll request result).notify
      (.unsubscribed row.listener row.topic none)).replay row.pending
  | .error _ =>
    let row' : Subscription :=
      { row with state := .established, unsubscribing := none, pending := [] }
    ((t.putRow row').settleAll request result).replay row.pending

def onUnsubscribed (t : Turn) (connection : ConnectionId) (topic : Topic) (result : Outcome) :
    Turn :=
  if t.core.isCurrent connection then
    if Outcome.isRetryable result || t.core.phase.isStopping then t
    else
      match t.core.subscriptions.find? topic with
      | none => t
      | some row => t.onDetached row result
  else t

def onTimerEnded (t : Turn) (timer : Nat) (popped : Bool) : Turn :=
  if t.core.timer = some timer then
    (t.update fun c => { c with timer := none }).fire
      (if popped then .timerPopped else .timerCancelled)
  else t

/-- A delivery goes to the listener of its row. With a guarantee it is acknowledged: once the
listener has finished, or when the application confirms it. -/
def onDelivered (t : Turn) (connection : ConnectionId) (m : InboundMessage) : Turn :=
  if t.core.isCurrent connection then
    match t.core.subscriptions.find? m.subscription with
    | none => t
    | some row =>
      let pending : PendingDelivery := ⟨connection, m.tag⟩
      if m.qos = .atMostOnce then
        t.notify (.delivery row.listener (.ofInbound m none) none)
      else if row.params.autoConfirm then
        t.notify (.delivery row.listener (.ofInbound m none) (some pending))
      else
        let id := t.core.tracked + 1
        (t.update fun c =>
          { c with tracked := id, confirmations := c.confirmations ++ [⟨id, pending⟩] }).notify
            (.delivery row.listener (.ofInbound m (some id)) none)
  else t

def onDisconnected (t : Turn) (connection : ConnectionId) (cause : ClientError) : Turn :=
  if t.core.isCurrent connection then
    (t.update (Core.recordError cause)).fire (if cause.isFatal then .replaced else .networkError)
  else t

def acknowledge (t : Turn) (d : PendingDelivery) : Turn :=
  if t.core.isCurrent d.connection then t.request (.confirm d.connection d.tag) else t

/-- The error of a confirmation that comes after its connection was lost. -/
def confirmationLost : ClientError :=
  .state "connection lost since the delivery arrived, it can no longer be confirmed"

def onConfirm (t : Turn) (id : ConfirmationId) (promise : PromiseId) : Turn :=
  match t.core.confirmations.find? (·.id = id) with
  | none => t.settle (.error confirmationLost) promise
  | some d =>
    ((t.update fun c =>
      { c with confirmations := c.confirmations.filter (·.id ≠ id) }).acknowledge
        d.delivery).settle (.ok ()) promise

def handle (t : Turn) : Signal → Turn
  | .start promise =>
    (t.update fun c => { c with pendingStarts := c.pendingStarts ++ promise.toList }).fire .start
  | .stop promise =>
    (t.update fun c =>
      { c with pendingStops := c.pendingStops ++ [promise], stoppedByUser := true }).fire .stop
  | .work w => t.onWork w
  | .endpointAnswered result => t.onEndpointAnswered result
  | .opened connection result => t.onOpened connection result
  | .closed connection => t.onClosed connection
  | .sent connection id result => t.onSent connection id result
  | .subscribed connection topic result => t.onSubscribed connection topic result
  | .unsubscribed connection topic result => t.onUnsubscribed connection topic result
  | .timerEnded timer popped => t.onTimerEnded timer popped
  | .delivered connection m => t.onDelivered connection m
  | .disconnected connection cause => t.onDisconnected connection cause
  | .confirm id promise => t.onConfirm id promise
  | .autoConfirm d => t.acknowledge d
  | .flushed => t.fire .callbacksFlushed
  | .subscriptionsRemade => t.fire .subscriptionsRemade
  | .callbackFailed cause => (t.update (Core.recordError cause)).fire .stop

end Turn

namespace Core

/-- Handles one signal: the core after it, and the effects on the way. -/
def handle (c : Core) (s : Signal) : Turn := (Turn.begin c).handle s

end Core

end PubSub
