import PubSub.Error

/-! # Callback service

Callbacks of one context run one at a time, in the order in which they were
submitted. Every context has a worker with a queue. A released worker takes no
more callbacks but runs those that it has, and the next worker of its context
waits for it. Workers go on by themselves, one step at a time.
-/

namespace PubSub

/-- How a callback ends. -/
inductive CallbackEnd where
  | returns
  | panics (text : String)
  deriving DecidableEq, Repr

/-- What the completion of a callback is told. -/
def CallbackEnd.outcome : CallbackEnd → Outcome
  | returns => .ok ()
  | panics text => .error (.callback text)

/-- What a worker is doing, with callbacks of type `τ`. -/
inductive WorkerPhase (τ : Type) where
  /-- Waits for the worker of the same context that has to finish first, if there is one. -/
  | waiting (predecessor : Option Nat)
  /-- Waits for a callback. -/
  | idle
  | running (task : τ)
  /-- The callback has ended, and its completion is about to be told. -/
  | ended (task : τ) (how : CallbackEnd)
  | finished
  deriving DecidableEq, Repr

structure Worker (τ : Type) where
  context : Nat
  queue : List τ
  /-- Takes more callbacks. -/
  isOpen : Bool
  phase : WorkerPhase τ

/-- What becomes of callbacks. -/
inductive CallbackEvent (τ : Type) where
  | accepted (context : Nat) (task : τ)
  /-- The callback was turned down, and its completion was told so. -/
  | rejected (context : Nat) (task : τ) (told : Outcome)
  | started (context : Nat) (task : τ)
  | ended (context : Nat) (task : τ) (how : CallbackEnd)
  /-- The completion of the callback was told. -/
  | settled (context : Nat) (task : τ) (told : Outcome)
  deriving DecidableEq

def CallbackEvent.started? {τ : Type} : CallbackEvent τ → Option (Nat × τ)
  | started context task => some (context, task)
  | accepted .. | rejected .. | ended .. | settled .. => none

namespace Worker

variable {τ : Type}

/-- The number of steps that a worker has before it. -/
def remaining (w : Worker τ) : Nat :=
  3 * w.queue.length +
    match w.phase with
    | .waiting _ => 2
    | .idle => 1
    | .running _ => 3
    | .ended .. => 2
    | .finished => 0

def isFinished (w : Worker τ) : Bool :=
  match w.phase with
  | .finished => true
  | _ => false

def enqueue (task : τ) (w : Worker τ) : Worker τ := { w with queue := w.queue ++ [task] }

/-- Takes no more callbacks from now on. -/
def shut (w : Worker τ) : Worker τ := { w with isOpen := false }

/-- The next step of a worker, if it can take one. It depends on which workers have finished, and
on how callbacks end. -/
def step (ends : τ → CallbackEnd) (finished : Nat → Bool) (w : Worker τ) :
    Option (Worker τ × List (CallbackEvent τ)) :=
  match w.phase with
  | .waiting predecessor =>
    if predecessor.all finished then some ({ w with phase := .idle }, []) else none
  | .idle =>
    match w.queue with
    | task :: rest =>
      some ({ w with queue := rest, phase := .running task }, [.started w.context task])
    | [] => if w.isOpen then none else some ({ w with phase := .finished }, [])
  | .running task =>
    some ({ w with phase := .ended task (ends task) }, [.ended w.context task (ends task)])
  | .ended task how =>
    some ({ w with phase := .idle }, [.settled w.context task how.outcome])
  | .finished => none

end Worker

structure CallbackService (τ : Type) where
  /-- All workers by number. -/
  workers : List (Worker τ)
  /-- The open worker of every context that has one. -/
  active : List (Nat × Nat)
  /-- The worker that was released last, of contexts without a later one. -/
  retired : List (Nat × Nat)
  closed : Bool

namespace CallbackService

variable {τ : Type}

def empty : CallbackService τ := ⟨[], [], [], false⟩

instance : Inhabited (CallbackService τ) := ⟨empty⟩

/-- The error of every callback that comes after the shutdown. -/
def shutDown : ClientError := .stopped "callback service is shut down"

/-- How many contexts have an open worker. -/
def activeContexts (s : CallbackService τ) : Nat := s.active.length

def without (context : Nat) (entries : List (Nat × Nat)) : List (Nat × Nat) :=
  entries.filter (·.1 ≠ context)

def isFinished (s : CallbackService τ) (worker : Nat) : Bool :=
  s.workers[worker]?.all (·.isFinished)

/-- Gives a context a new worker, which waits for the one released before it. -/
def hire (s : CallbackService τ) (context : Nat) : CallbackService τ :=
  { s with
    workers := s.workers ++ [⟨context, [], true, .waiting (s.retired.lookup context)⟩]
    active := s.active ++ [(context, s.workers.length)]
    retired := without context s.retired }

/-- The open worker of a context, a new one if there is none. -/
def worker (s : CallbackService τ) (context : Nat) : Nat × CallbackService τ :=
  match s.active.lookup context with
  | some w => (w, s)
  | none => (s.workers.length, s.hire context)

/-- Puts a callback into the queue of a worker; none if nobody takes from it any more. -/
def enqueue? (s : CallbackService τ) (worker : Nat) (task : τ) : Option (CallbackService τ) :=
  if s.isFinished worker then none
  else some { s with workers := s.workers.modify worker (Worker.enqueue task) }

/-- Submits a callback; none if it is turned down. -/
def run? (s : CallbackService τ) (context : Nat) (task : τ) : Option (CallbackService τ) :=
  if s.closed then none
  else
    let (w, s) := s.worker context
    s.enqueue? w task

def closeWorker (s : CallbackService τ) (worker : Nat) : CallbackService τ :=
  { s with workers := s.workers.modify worker Worker.shut }

/-- Forgets the released workers that have finished. -/
def prune (s : CallbackService τ) : CallbackService τ :=
  { s with retired := s.retired.filter fun entry => !s.isFinished entry.2 }

/-- The worker of a context takes no more callbacks. -/
def release (s : CallbackService τ) (context : Nat) : CallbackService τ :=
  let s := s.prune
  match s.active.lookup context with
  | none => s
  | some w =>
    let s := s.closeWorker w
    { s with
      active := without context s.active
      retired := without context s.retired ++ [(context, w)] }

/-- The service takes no more callbacks. -/
def close (s : CallbackService τ) : CallbackService τ := { s with closed := true }

/-- No worker takes more callbacks. -/
def dropWorkers (s : CallbackService τ) : CallbackService τ :=
  { s with
    workers := s.workers.map Worker.shut
    active := []
    retired := [] }

def shutdown (s : CallbackService τ) : CallbackService τ := s.close.dropWorkers

/-- The next step of a worker, if it can take one, when callbacks end in a given way. -/
def proceed (ends : τ → CallbackEnd) (s : CallbackService τ) (worker : Nat) :
    Option (CallbackService τ × List (CallbackEvent τ)) := do
  let w ← s.workers[worker]?
  let (w, events) ← w.step ends s.isFinished
  some ({ s with workers := s.workers.set worker w }, events)

/-- Everything that a worker does until it cannot go on, at most `fuel` steps. -/
def turns (ends : τ → CallbackEnd) (worker : Nat) :
    Nat → CallbackService τ → List (CallbackEvent τ) × CallbackService τ
  | 0, s => ([], s)
  | fuel + 1, s =>
    match s.proceed ends worker with
    | none => ([], s)
    | some (s, events) =>
      let (later, s) := turns ends worker fuel s
      (events ++ later, s)

def remaining (s : CallbackService τ) (worker : Nat) : Nat :=
  match s.workers[worker]? with
  | none => 0
  | some w => w.remaining

/-- Everything that the workers do, each until it cannot go on. A worker waits only for workers
before it. -/
def settleAll (ends : τ → CallbackEnd) (s : CallbackService τ) :
    List (CallbackEvent τ) × CallbackService τ :=
  (List.range s.workers.length).foldl
    (fun (events, s) worker =>
      let (more, s) := turns ends worker (s.remaining worker) s
      (events ++ more, s))
    ([], s)

/-- Runs everything that has been submitted: the callbacks with their contexts. -/
def settle (s : CallbackService τ) : List (Nat × τ) × CallbackService τ :=
  let (events, s) := s.settleAll fun _ => .returns
  (events.filterMap CallbackEvent.started?, s)

end CallbackService

end PubSub
