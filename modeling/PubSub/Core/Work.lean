import PubSub.Core

/-! # Doing work

Work that arrives while the client is started goes to the current connection;
while it is connecting it is kept, and while it is stopping it is turned down.
Operations on one topic go one at a time, in the order of the calls.
-/

namespace PubSub

namespace Turn

def reject (t : Turn) (w : Work) (cause : ClientError) : Turn :=
  match w with
  | .send r => t.finishSend r.promise (.error cause)
  | w => t.settle (.error cause) w.promise

def keep (t : Turn) (w : Work) : Turn :=
  t.update fun c => { c with pendingWork := c.pendingWork ++ [w] }

def executeSend (t : Turn) (connection : ConnectionId) (r : SendRequest) : Turn :=
  let id := t.core.sends + 1
  (t.update fun c =>
    { c with sends := id, outstanding := c.outstanding ++ [⟨id, connection, r⟩] }).request
      (.send connection id r.message)

def executeSubscribe (t : Turn) (connection : ConnectionId) (r : SubscribeRequest) : Turn :=
  match t.core.subscriptions.find? r.params.topic with
  | none => (t.putRow (.new r)).request (.subscribe connection r.params)
  | some row =>
    if row.isIdle then
      t.settle (.error (.alreadySubscribed r.params.topic.address)) r.promise
    else t.putRow { row with pending := row.pending ++ [.subscribe r] }

def executeUnsubscribe (t : Turn) (connection : ConnectionId) (r : UnsubscribeRequest) : Turn :=
  match t.core.subscriptions.find? r.topic with
  | none => t.settle (.error (.notSubscribed r.topic.address)) r.promise
  | some row =>
    if row.state = .established ∧ row.pending.isEmpty then
      (t.putRow { row with state := .detaching, unsubscribing := some r }).request
        (.unsubscribe connection r.topic r.zeroTtl)
    else t.putRow { row with pending := row.pending ++ [.unsubscribe r] }

def execute (t : Turn) (w : Work) : Turn :=
  match t.core.connection with
  | none => t.keep w
  | some connection =>
    match w with
    | .send r => t.executeSend connection r
    | .subscribe r => t.executeSubscribe connection r
    | .unsubscribe r => t.executeUnsubscribe connection r

def onWork (t : Turn) (w : Work) : Turn :=
  match t.core.phase.view.work with
  | .reject => t.reject w .clientStopped
  | .queue => t.keep w
  | .accept => t.execute w

/-- Does work again, in order. -/
def replay (t : Turn) (ws : List Work) : Turn := ws.foldl onWork t

end Turn

end PubSub
