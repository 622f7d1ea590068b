import PubSub.TimerService

/-! # Timers with promises

Every timer has a promise, which takes one result: that of the timer service,
or one from elsewhere if that comes first.
-/

namespace PubSub

structure PromisedTimers where
  service : TimerService
  /-- For every timer whether its promise has a result. -/
  done : List Bool
  /-- The results since the record was begun, in order. -/
  fired : List (Nat × Outcome)
  deriving DecidableEq, Repr

namespace PromisedTimers

def empty : PromisedTimers := ⟨.empty, [], []⟩

instance : Inhabited PromisedTimers := ⟨empty⟩

/-- Begins a new record of results. -/
def forget (t : PromisedTimers) : PromisedTimers := { t with fired := [] }

def has (t : PromisedTimers) (timer : Nat) : Bool := timer < t.done.length

def isDone (t : PromisedTimers) (timer : Nat) : Bool := t.done.getD timer false

/-- Schedules a timer with a new promise. -/
def new (t : PromisedTimers) (delay : Duration) : Nat × PromisedTimers :=
  let timer := t.done.length
  (timer, { t with service := t.service.schedule timer delay, done := t.done ++ [false] })

/-- Schedules a timer once more, with the promise that it has. -/
def schedule (t : PromisedTimers) (timer : Nat) (delay : Duration) : PromisedTimers :=
  { t with service := t.service.schedule timer delay }

def cancel (t : PromisedTimers) (timer : Nat) : PromisedTimers :=
  { t with service := t.service.cancel timer }

def advance (t : PromisedTimers) (d : Duration) : PromisedTimers :=
  { t with service := t.service.advance d }

/-- Completes the promise of a timer, which takes no second result. -/
def complete (t : PromisedTimers) (timer : Nat) (result : Outcome) : Outcome × PromisedTimers :=
  if t.done.getD timer true then (.error .alreadyCompleted, t)
  else (.ok (), { t with done := t.done.set timer true, fired := t.fired ++ [(timer, result)] })

def completeAll (t : PromisedTimers) (results : List (Nat × Outcome)) : PromisedTimers :=
  results.foldl (fun t (timer, result) => (t.complete timer result).2) t

/-- Lets the tasks of the service run until they wait. -/
def settle (t : PromisedTimers) : PromisedTimers :=
  let (decided, service) := t.service.settle
  { t with service := service }.completeAll decided

end PromisedTimers

end PubSub
