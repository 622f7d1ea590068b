import PubSub.Json
import PubSub.Promise

/-! # Scripted promises

Promises are completed and listened to by a script, whose listeners run further
steps. A direct promise runs its listener at once; a dispatched one gives it to
a queue of callbacks, where a failure ends the callback alone.
-/

namespace PubSub

namespace PromiseScript

/-- How the listener of a promise is run. -/
inductive Dispatch where
  | direct
  /-- Through the callback queue, with or without a hook that is told of failures. -/
  | queued (hook : Bool)
  deriving DecidableEq, Repr

inductive Step where
  | new (dispatch : Dispatch)
  /-- Another handle on the same promise. -/
  | clone (p : Nat)
  | complete (p : Nat) (result : Except ClientError Int)
  | isDone (p : Nat)
  | inspect (p : Nat)
  | inspectDispatch (hook : Bool)
  | same (p q : Nat)
  | listen (p : Nat) (label : Json) (next : List Step) (panic : Option String)
  /-- A callback of its own, with or without a hook. -/
  | dispatch (label : Json) (hook : Bool) (next : List Step) (panic : Option String)
  /-- A callback of its own, whose end is reported. -/
  | dispatchWith (label : Json) (next : List Step) (panic : Option String)
  | reject (on : Bool)
  | run (count : Nat)
  | unknown

instance : Inhabited Step := ⟨.unknown⟩

inductive Answer where
  | ok
  | failed (cause : ClientError)
  | number (n : Nat)
  | bool (b : Bool)
  | text (s : String)
  /-- There is no such step or no such promise. -/
  | refused

/-- What a listener or a callback does. -/
structure Routine where
  label : Json
  next : List Step
  panic : Option String

inductive Event where
  | heard (label : Json) (result : Except ClientError Int)
  | ran (label : Json)
  | answered (answer : Answer)
  | hookTold (cause : ClientError)
  | finished (label : Json) (result : Outcome)

/-- Who is told of the end of a callback. -/
inductive Told where
  /-- Hears of failures only. -/
  | hook
  | reported (label : Json)

/-- A callback: a routine, after the promise and the result that a listener hears. -/
structure Callback where
  heard : Option (Nat × Except ClientError Int)
  routine : Routine
  /-- Completed with the end of the callback. -/
  completion : Option (Promise Unit Told)

/-- The completion of a callback, with or without a failure hook. -/
def completionFor (hook : Bool) : Option (Promise Unit Told) :=
  if hook then some (.listened .hook) else none

structure World where
  promises : List (Dispatch × Promise Int Routine) := []
  /-- The promise behind every handle. -/
  handles : List Nat := []
  queue : List Callback := []
  rejecting : Bool := false
  log : List Event := []

/-- A step that may end in a panic; what has happened until then stays. -/
abbrev Play := ExceptT String (StateM World)

def record (e : Event) : Play Unit := modify fun w => { w with log := w.log ++ [e] }

/-- Tells the end of a callback. -/
def Told.tell : Told → Outcome → Play Unit
  | .hook, .ok _ => pure ()
  | .hook, .error e => record (.hookTold e)
  | .reported label, result => record (.finished label result)

/-- Completes the completion of a callback. -/
def Callback.settle (c : Callback) (result : Outcome) : Play Unit :=
  match c.completion with
  | none => pure ()
  | some completion =>
    match completion.complete result with
    | .ok (_, some told) => told.tell result
    | .ok (_, none) | .error _ => pure ()

/-- The error of every callback that the queue turns down. -/
def rejected : ClientError := .stopped "rejected"

def submit (c : Callback) : Play Unit := do
  let w ← get
  if w.rejecting then c.settle (.error rejected)
  else set { w with queue := w.queue ++ [c] }

/-- Runs the steps of a routine, each of which is recorded, and then its panic. -/
def Routine.perform (play : Step → Play Answer) (r : Routine) : Play Unit := do
  for step in r.next do
    let answer ← play step
    record (.answered answer)
  match r.panic with
  | some text => throw text
  | none => pure ()

/-- Records that a callback begins. -/
def Callback.begin (c : Callback) : Play Unit :=
  match c.heard with
  | some (_, result) => record (.heard c.routine.label result)
  | none => record (.ran c.routine.label)

def Callback.perform (play : Step → Play Answer) (c : Callback) : Play Unit := do
  c.begin
  c.routine.perform play

/-- Hands the result of a promise to its listener. -/
def deliver (play : Step → Play Answer) (i : Nat) (dispatch : Dispatch) (r : Routine)
    (result : Except ClientError Int) : Play Unit :=
  match dispatch with
  | .direct => Callback.perform play ⟨some (i, result), r, none⟩
  | .queued hook => submit ⟨some (i, result), r, completionFor hook⟩

/-- Runs a callback; its panic goes no further than its completion. -/
def runCallback (play : Step → Play Answer) (c : Callback) : Play Unit := do
  let result : Outcome ← tryCatch (do c.perform play; pure (.ok ()))
    fun text => pure (.error (.callback text))
  c.settle result

/-- Runs callbacks in order until none waits, also those that come meanwhile. -/
def runQueue (play : Step → Play Answer) : Nat → Nat → Play Nat
  | 0, done => pure done
  | count + 1, done => do
    let w ← get
    match w.queue with
    | [] => pure done
    | c :: rest => do
      set { w with queue := rest }
      runCallback play c
      runQueue play count (done + 1)

/-- The number of a handle's promise, and the promise. -/
def World.promise? (w : World) (p : Nat) : Option (Nat × Dispatch × Promise Int Routine) := do
  let i ← w.handles[p]?
  let (dispatch, promise) ← w.promises[i]?
  some (i, dispatch, promise)

def World.setPromise (w : World) (i : Nat) (dispatch : Dispatch) (promise : Promise Int Routine) :
    World :=
  { w with promises := w.promises.set i (dispatch, promise) }

def addHandle (i : Nat) : Play Answer := do
  let w ← get
  set { w with handles := w.handles ++ [i] }
  pure (.number w.handles.length)

def complete (play : Step → Play Answer) (p : Nat) (result : Except ClientError Int) :
    Play Answer := do
  match (← get).promise? p with
  | none => pure .refused
  | some (i, dispatch, promise) =>
    match promise.complete result with
    | .error e => pure (.failed e)
    | .ok (promise, listener) => do
      modify fun w => w.setPromise i dispatch promise
      match listener with
      | none => pure .ok
      | some r => do
        deliver play i dispatch r result
        pure .ok

def listen (play : Step → Play Answer) (p : Nat) (r : Routine) : Play Answer := do
  match (← get).promise? p with
  | none => pure .refused
  | some (i, dispatch, promise) =>
    match promise.attach r with
    | .error e => pure (.failed e)
    | .ok (promise, result) => do
      modify fun w => w.setPromise i dispatch promise
      match result with
      | none => pure .ok
      | some result => do
        deliver play i dispatch r result
        pure .ok

/-- The structural form of a promise, without its number. -/
def inspectPromise (dispatch : Dispatch) (promise : Promise Int Routine) : String :=
  s!"Promise \x7b id: N, done: {promise.isDone}, dispatched: {decide (dispatch ≠ .direct)} \x7d"

def inspectDispatch (hook : Bool) : String :=
  s!"CallbackDispatch \x7b context: OrderingContext(N), has_failure_hook: {hook} \x7d"

/-- One step; the steps of routines are played by `play`. -/
def perform (play : Step → Play Answer) : Step → Play Answer
  | .new dispatch => do
    let w ← get
    set { w with promises := w.promises ++ [(dispatch, Promise.new)] }
    addHandle w.promises.length
  | .clone p => do
    match (← get).promise? p with
    | none => pure .refused
    | some (i, _, _) => addHandle i
  | .complete p result => complete play p result
  | .isDone p => do
    match (← get).promise? p with
    | none => pure .refused
    | some (_, _, promise) => pure (.bool promise.isDone)
  | .inspect p => do
    match (← get).promise? p with
    | none => pure .refused
    | some (_, dispatch, promise) => pure (.text (inspectPromise dispatch promise))
  | .inspectDispatch hook => pure (.text (inspectDispatch hook))
  | .same p q => do
    let w ← get
    match w.promise? p, w.promise? q with
    | some (i, _), some (j, _) => pure (.bool (i = j))
    | _, _ => pure .refused
  | .listen p label next panic => listen play p ⟨label, next, panic⟩
  | .dispatch label hook next panic => do
    submit ⟨none, ⟨label, next, panic⟩, completionFor hook⟩
    pure .ok
  | .dispatchWith label next panic => do
    submit ⟨none, ⟨label, next, panic⟩, some (.listened (.reported label))⟩
    pure .ok
  | .reject on => do
    modify fun w => { w with rejecting := on }
    pure .ok
  | .run count => do
    let done ← runQueue play count 0
    pure (.number done)
  | .unknown => pure .refused

mutual

/-- The number of steps in a script, those of its routines included. -/
def Step.size : Step → Nat
  | .listen _ _ next _ => 1 + sizes next
  | .dispatch _ _ next _ => 1 + sizes next
  | .dispatchWith _ next _ => 1 + sizes next
  | _ => 1

def sizes : List Step → Nat
  | [] => 0
  | s :: rest => s.size + sizes rest

end

/-- Plays a step with routines nested at most `depth` deep. -/
def play : (depth : Nat) → Step → Play Answer
  | 0, _ => pure .refused
  | depth + 1, step => perform (play depth) step

/-- What a step did: its answer or the text of its panic, the events, and the callbacks left. -/
structure Turn where
  answer : Except String Answer
  log : List Event
  queued : Nat

/-- Plays one step of a script. -/
def turn (depth : Nat) (w : World) (step : Step) : Turn × World :=
  let (answer, after) := (play depth step).run.run { w with log := [] }
  (⟨answer, after.log, after.queue.length⟩, after)

/-- Plays the steps of a script in order. A panic ends no more than its step. -/
def turns (depth : Nat) (w : World) : List Step → List Turn × World
  | [] => ([], w)
  | step :: rest =>
    let (t, w) := turn depth w step
    let (later, w) := turns depth w rest
    (t :: later, w)

/-- Plays a script from the beginning. No routine runs twice, so that its size bounds nesting. -/
def playAll (steps : List Step) : List Turn := (turns (sizes steps) {} steps).1

end PromiseScript

end PubSub
