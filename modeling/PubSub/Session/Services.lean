import PubSub.Session.World

/-! # The services of a session

A service call is recorded, plays its hook, and is answered at once if its
switch is on. All other answers are steps of the script. A call has one answer.
-/

namespace PubSub

namespace Session

/-- Breaks down if a fault is set for the occasion, once. -/
def breakDown (occasion : Occasion) : Play Unit := do
  let w ← get
  if w.faults.contains occasion then
    set { w with faults := w.faults.filter (· ≠ occasion) }
    throw "a service broke down"

/-- Answers a call. -/
def complete (index : Nat) (result : Outcome) : Play Outcome := do
  let w ← get
  match w.calls[index]? with
  | none => pure (.error .alreadyCompleted)
  | some call =>
    if call.isDone then pure (.error .alreadyCompleted)
    else
      set { w with calls := w.calls.set index { call with isDone := true } }
      post (call.reply.signal result)
      pure (.ok ())

def completeLookup (index : Nat) (result : Except ClientError EndpointAnswer) :
    Play Outcome := do
  let w ← get
  if w.lookups.getD index true then pure (.error .alreadyCompleted)
  else
    set { w with lookups := w.lookups.set index true }
    post (.endpointAnswered result)
    pure (.ok ())

/-- The place of a numbered call, the newest of its kind if no number is given. -/
def World.callIndex? (w : World) (kind : CallKind) (number : Option Nat) : Option Nat :=
  let isMeant (call : ServiceCall) : Bool :=
    call.reply.kind = kind && call.number.isSome && (number.isNone || call.number = number)
  (List.range w.calls.length).reverse.find? fun i => (w.calls[i]?.map isMeant).getD false

/-- The place of the call for a timer. -/
def World.timerIndex? (w : World) (timer : Nat) : Option Nat :=
  w.calls.findIdx? (·.reply = .timerEnded timer)

/-- A call that is answered by a reply. If it breaks down it has no number. -/
def call (play : Step → Play Answer) (occasion : Occasion) (reply : Reply)
    (event : Nat → Event) (auto : Option Switch) : Play Unit := do
  let w ← get
  let index := w.calls.length
  let number :=
    w.calls.countP fun call => call.reply.kind = reply.kind && call.number.isSome
  set { w with calls := w.calls ++ [ServiceCall.new reply] }
  breakDown occasion
  modify fun w =>
    { w with calls := w.calls.modify index fun call => { call with number := some number } }
  record (event number)
  playHook play occasion
  if auto.any (← get).isOn then discard (complete index (.ok ()))

/-- Answers a lookup from the list of endpoints. -/
def rotate (lookup : Nat) (rotation : Rotation) : Play Unit := do
  let (answer, rotation) := rotation.next
  modify fun w => { w with rotation := some rotation }
  match answer with
  | .overflow => throw "the wait is no duration"
  | .found endpoint => give (.ok (.found endpoint))
  | .wait delay => give (.ok (.retryAfter delay))
  | .exhausted attempts => give (.error (.retryLimit attempts))
where
  give (result : Except ClientError EndpointAnswer) : Play Unit := do
    record (.lookupAnswered result)
    discard (completeLookup lookup result)

/-- The answer to a lookup that nothing else answers. -/
def standardAnswer : Except ClientError EndpointAnswer := do
  let endpoint ← Endpoint.ofService "amqp://localhost" {}
  pure (.found endpoint)

def lookup (play : Step → Play Answer) : Play Unit := do
  let number := (← get).lookups.length
  modify fun w => { w with lookups := w.lookups ++ [false] }
  record (.lookup number)
  breakDown .lookup
  playHook play .lookup
  let w ← get
  if w.isOn .holdLookups then pure ()
  else
    match w.rotation, w.scriptedLookups with
    | some rotation, _ => rotate number rotation
    | none, [] => discard (completeLookup number standardAnswer)
    | none, answer :: rest => do
      set { w with scriptedLookups := rest }
      discard (completeLookup number answer)

def report (play : Step → Play Answer) (endpoint : Endpoint) : Play Unit := do
  record (.report endpoint)
  breakDown .report
  playHook play .report
  modify fun w => { w with rotation := w.rotation.map (·.succeed endpoint) }

def confirm (play : Step → Play Answer) (connection : ConnectionId) (tag : Nat) :
    Play Unit := do
  breakDown .confirm
  record (.confirm connection tag)
  playHook play .confirm

def cancel (timer : Nat) : Play Unit := do
  let w ← get
  match w.timerIndex? timer with
  | none => record (.cancel none)
  | some index => do
    record (.cancel (w.calls[index]?.bind (·.number)))
    unless w.isOn .keepTimers do
      discard (complete index (.error .cancelled))

def request (play : Step → Play Answer) : Request → Play Unit
  | .lookup => lookup play
  | .report endpoint => report play endpoint
  | .connect connection endpoint => do
    modify fun w => { w with connections := w.connections ++ [connection] }
    let id := (← get).client.id
    call play .connect (.opened connection) (.connect · connection endpoint id)
      (some .autoConnect)
  | .disconnect connection =>
    call play .disconnect (.closed connection) (.disconnect · connection) (some .autoDisconnect)
  | .send connection id message =>
    call play .send (.sent connection id) (.send · connection message) (some .autoAcknowledge)
  | .subscribe connection params =>
    call play .subscribe (.subscribed connection params.topic) (.subscribe · connection params)
      (some .autoAcknowledge)
  | .unsubscribe connection topic zeroTtl =>
    call play .unsubscribe (.unsubscribed connection topic)
      (.unsubscribe · connection topic zeroTtl) (some .autoAcknowledge)
  | .confirm connection tag => confirm play connection tag
  | .schedule timer delay =>
    call play .schedule (.timerEnded timer) (.schedule · delay) none
  | .cancel timer => cancel timer

end Session

end PubSub
