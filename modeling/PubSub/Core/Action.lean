import PubSub.Core.Work

/-! # Performing the actions of a transition

Firing a trigger moves the core to the next phase, publishes the state, and
performs the actions of the transition in order; every action finds the core in
the new phase. A trigger without a transition is ignored.
-/

namespace PubSub

namespace Turn

def connect (t : Turn) : Turn :=
  match t.core.endpoint with
  | none =>
    t.post (.opened ⟨t.core.connections⟩ (.error (.state "no endpoint")))
  | some endpoint =>
    let connection : ConnectionId := ⟨t.core.connections + 1⟩
    (t.update fun c =>
      { c with connections := c.connections + 1, connection := some connection }).request
        (.connect connection endpoint)

/-- Closes the current connection; without one the closing is over at once. -/
def disconnect (closed : Turn → Turn) (t : Turn) : Turn :=
  match t.core.connection with
  | none => closed t
  | some connection => t.request (.disconnect connection)

def cancelTimer (t : Turn) : Turn :=
  match t.core.timer with
  | none => t
  | some timer => t.request (.cancel timer)

def startTimer (t : Turn) : Turn :=
  let t := t.cancelTimer
  let timer := t.core.timers + 1
  (t.update fun c => { c with timers := timer, timer := some timer }).request
    (.schedule timer t.core.retryDelay)

def reportEndpoint (t : Turn) : Turn :=
  let t := t.update fun c => { c with retryDelay := .zero }
  match t.core.endpoint with
  | none => t
  | some endpoint => t.request (.report endpoint)

def subscribeAgain (connection : ConnectionId) (t : Turn) (params : SubscribeParams) : Turn :=
  t.request (.subscribe connection params)

/-- Subscribes anew to every broken row. -/
def remake (t : Turn) : Turn :=
  match t.core.connection with
  | none => t.post .subscriptionsRemade
  | some connection =>
    let params := t.core.subscriptions.remakeParams
    let t := t.update fun c =>
      { c with subscriptions := c.subscriptions.remake, remakesOutstanding := params.length }
    if params.isEmpty then t.post .subscriptionsRemade
    else params.foldl (subscribeAgain connection) t

/-- The end of an unanswered send whose connection is lost for good. -/
def abandonSend (atLeastOnce : Outcome) (t : Turn) (send : OutstandingSend) : Turn :=
  t.finishSend send.request.promise
    (if send.request.message.qos = .atMostOnce then .ok () else atLeastOnce)

/-- Sends with a guarantee go back to the front of the kept work, those without one are over. -/
def breakConnection (t : Turn) : Turn :=
  let isWeak (send : OutstandingSend) : Bool := send.request.message.qos = .atMostOnce
  let weak := t.core.outstanding.filter isWeak
  let strong := t.core.outstanding.filter (!isWeak ·)
  let t := t.update fun c => { c with outstanding := [] }
  let t := weak.foldl (abandonSend (.ok ())) t
  (t.update fun c =>
    { c with
      pendingWork :=
        strong.map (Work.send ·.request) ++ c.subscriptions.recovered ++ c.pendingWork
      subscriptions := c.subscriptions.interrupt
      remakesOutstanding := 0
      confirmations := [] }).emit .takeDrain

/-- The end of a row: its promises fail, and a listener that was ever subscribed is told. -/
def endRow (t : Turn) (row : Subscription) : Turn :=
  let t := t.settleAll row.promises (.error .clientStopped)
  if row.establishedOnce then t.notify (.unsubscribed row.listener row.topic none) else t

def rejectStopped (t : Turn) (w : Work) : Turn := t.reject w .clientStopped

/-- Ends everything that the session still holds. -/
def cleanup (t : Turn) : Turn :=
  let rows := t.core.subscriptions
  let t := rows.foldl endRow (t.update fun c => { c with subscriptions := [] })
  let sends := t.core.outstanding
  let t := t.update fun c => { c with remakesOutstanding := 0, outstanding := [] }
  let t := sends.foldl (abandonSend (.error .clientStopped)) t
  let work := t.core.pendingWork
  let t := work.foldl rejectStopped (t.update fun c => { c with pendingWork := [] })
  let timer := t.core.timer
  let t := t.update fun c => { c with confirmations := [], connection := none, timer := none }
  let t := match timer with
    | none => t
    | some timer => t.request (.cancel timer)
  t.emit .takeDrain

def settleStarts (t : Turn) (result : Outcome) : Turn :=
  (t.update fun c => { c with pendingStarts := [] }).settleAll t.core.pendingStarts result

def settleStops (t : Turn) : Turn :=
  (t.update fun c => { c with pendingStops := [] }).settleAll t.core.pendingStops (.ok ())

def replayPending (t : Turn) : Turn :=
  (t.update fun c => { c with pendingWork := [] }).replay t.core.pendingWork

/-- Tells of the error of the session, which is told once. -/
def notifyCause (t : Turn) (n : Option ClientError → Notification) : Turn :=
  (t.update fun c => { c with lastError := none }).notify (n t.core.lastError)

def resumeStart (t : Turn) : Turn :=
  if t.core.pendingStarts.isEmpty then t else t.post (.start none)

def perform (closed : Turn → Turn) (t : Turn) : Action → Turn
  | .requestEndpoint => t.request .lookup
  | .openConnection => t.connect
  | .closeConnection => t.disconnect closed
  | .startRetryTimer => t.startTimer
  | .cancelRetryTimer => t.cancelTimer
  | .markEndpointGood => t.reportEndpoint
  | .remakeSubscriptions => t.remake
  | .breakConnection => t.breakConnection
  | .discardConnection => t.update fun c => { c with connection := none }
  | .cleanup => t.cleanup
  | .flushCallbacks => t.emit .flush
  | .resetSession => t.update fun c =>
      { c with lastError := none, stoppedByUser := false, retryDelay := .zero }
  | .succeedPendingStarts => t.settleStarts (.ok ())
  | .failPendingStarts => t.settleStarts (.error (t.core.lastError.getD .clientStopped))
  | .succeedPendingStops => t.settleStops
  | .replayPendingWork => t.replayPending
  | .notifyStarting => t.notify .starting
  | .notifyStarted => t.notify .started
  | .notifyRestarted => t.notify .restarted
  | .notifyRetrying => t.notifyCause .retrying
  | .notifyStopped => t.notifyCause .stopped
  | .releaseCallbacks => t.emit .release
  | .resumeStart => t.resumeStart

def fireWith (closed : Turn → Turn) (t : Turn) (trigger : Trigger) : Turn :=
  match t.core.phase.transition trigger with
  | none => t
  | some ⟨next, actions⟩ =>
    actions.foldl (perform closed)
      ((t.update fun c => { c with phase := next }).emit (.publish next.view))

/-- The end of a closing; no transition of it closes a connection again. -/
def fireClosed (t : Turn) : Turn := t.fireWith id .connectionClosed

def fire (t : Turn) (trigger : Trigger) : Turn := t.fireWith fireClosed trigger

end Turn

end PubSub
