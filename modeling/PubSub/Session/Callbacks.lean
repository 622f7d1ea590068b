import PubSub.Session.Turn

/-! # The callbacks of a session

Callbacks run one by one when the script says so. A callback that breaks down
is a failed one; how it ended is reported to the client.
-/

namespace PubSub

namespace Session

/-- Tells the application of a change of the session. -/
def tell (play : Step → Play Answer) (occasion : Occasion) (event : Event) : Play Unit := do
  unless (← get).unheard do
    record event
    playHook play occasion

/-- Plays the hook of a subscription's listener for the next occurrence of an occasion. -/
def playListenerHook (play : Step → Play Answer) (listener : ListenerId) (occasion : Occasion) :
    Play Unit := do
  let w ← get
  match w.listeners[listener]? with
  | none => pure ()
  | some l => do
    let (steps, hooks) := takeHook occasion l.hooks
    set { w with listeners := w.listeners.set listener { l with hooks := hooks } }
    playSteps play occasion steps

def World.isMinimal (w : World) (listener : ListenerId) : Bool :=
  w.listeners[listener]?.any (·.minimal)

def receive (play : Step → Play Answer) (listener : ListenerId) (d : Delivery) : Play Unit := do
  let w ← get
  unless d.isMalformed && w.isMinimal listener do
    set { w with deliveries := w.deliveries ++ [d] }
    record (.delivered listener w.deliveries.length d)
    playListenerHook play listener (if d.isMalformed then .malformed else .message)

def hear (play : Step → Play Answer) : Notification → Play Unit
  | .starting => tell play .starting .starting
  | .started => tell play .started .started
  | .restarted => tell play .restarted .restarted
  | .retrying cause => tell play .retrying (.retrying cause)
  | .stopped cause => tell play .stopped (.stopped cause)
  | .drain => tell play .drain .drain
  | .delivery listener d _ => receive play listener d
  | .unsubscribed listener topic error => do
    unless (← get).isMinimal listener do
      record (.unsubscribed listener topic error)
      playListenerHook play listener .unsubscribed

def runTask (play : Step → Play Answer) : Task PromiseListener → Play Unit
  | .notification n => hear play n
  | .settled listener result => do
    record (.settled listener.number result)
    playSteps play .settled (takeHook .settled listener.hooks).1
  | .flush => pure ()

def runCallback (play : Step → Play Answer) (job : Job PromiseListener) : Play Unit := do
  let result : Outcome ← tryCatch (do runTask play job.task; pure (.ok ()))
    fun text => pure (.error (.callback text))
  (job.completion.signal? result).forM fun s => settling play (post s)

/-- Runs callbacks in order until none waits, at most `count` of them; gives their number. -/
def runQueue (play : Step → Play Answer) : (count : Nat) → Play Nat
  | 0 => pure 0
  | count + 1 => do
    let w ← get
    match w.queue with
    | [] => pure 0
    | job :: rest => do
      set { w with queue := rest }
      runCallback play job
      let later ← runQueue play count
      pure (later + 1)

end Session

end PubSub
