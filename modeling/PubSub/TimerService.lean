import PubSub.Duration
import PubSub.Error

/-! # Timers

A scheduled timer has an entry, and a task that waits for its delay. Whoever
takes the entry first decides the timer: the task that finds it after the delay
lets the timer pop, a cancellation leaves the task nothing but to report it.
-/

namespace PubSub

/-- The task of a scheduled timer. -/
structure TimerTask where
  id : Nat
  timer : Nat
  delay : Duration
  /-- When the delay is over; it starts at the first turn of the task. -/
  deadline : Option Duration
  cancelled : Bool
  deriving DecidableEq, Repr

structure TimerService where
  now : Duration
  /-- The task of every timer that is neither popped nor cancelled. -/
  entries : List (Nat × Nat)
  /-- Tasks that are not over, in the order of their scheduling. -/
  tasks : List TimerTask
  /-- How many timers have been scheduled. -/
  scheduled : Nat
  deriving DecidableEq, Repr

namespace TimerService

def empty : TimerService := ⟨.zero, [], [], 0⟩

instance : Inhabited TimerService := ⟨empty⟩

def active (s : TimerService) : Nat := s.entries.length

def removeEntry (s : TimerService) (timer : Nat) : TimerService :=
  { s with entries := s.entries.filter (·.1 ≠ timer) }

/-- Schedules a timer. An earlier entry of the same timer gives way. -/
def schedule (s : TimerService) (timer : Nat) (delay : Duration) : TimerService :=
  let id := s.scheduled
  let s := s.removeEntry timer
  { s with
    entries := s.entries ++ [(timer, id)]
    tasks := s.tasks ++ [⟨id, timer, delay, none, false⟩]
    scheduled := id + 1 }

/-- Cancels a timer; without an entry there is nothing to cancel. -/
def cancel (s : TimerService) (timer : Nat) : TimerService :=
  match s.entries.lookup timer with
  | none => s
  | some id =>
    let s := s.removeEntry timer
    { s with tasks := s.tasks.map fun t => if t.id = id then { t with cancelled := true } else t }

def advance (s : TimerService) (d : Duration) : TimerService :=
  { s with now := ⟨s.now.nanos + d.nanos⟩ }

def removeTask (s : TimerService) (id : Nat) : TimerService :=
  { s with tasks := s.tasks.filter (·.id ≠ id) }

def isDue (s : TimerService) (t : TimerTask) : Bool :=
  t.deadline.any fun d => d.nanos ≤ s.now.nanos

/-- The task at its first turn starts to wait. -/
def started (s : TimerService) (t : TimerTask) : TimerTask :=
  { t with deadline := some (t.deadline.getD ⟨s.now.nanos + t.delay.nanos⟩) }

/-- A turn of a task: the timer that it decides and how, if it is over. -/
def turn (s : TimerService) (id : Nat) : Option (Nat × Outcome) × TimerService :=
  match s.tasks.find? (·.id = id) with
  | none => (none, s)
  | some t =>
    let t := s.started t
    if t.cancelled then (some (t.timer, .error .cancelled), s.removeTask id)
    else if s.isDue t then
      let result : Outcome :=
        if (s.entries.lookup t.timer).isSome then .ok () else .error .cancelled
      (some (t.timer, result), (s.removeTask id).removeEntry t.timer)
    else
      (none, { s with tasks := s.tasks.map fun u => if u.id = id then t else u })

/-- A turn of every task, in the order of their scheduling: the timers that are decided. -/
def settle (s : TimerService) : List (Nat × Outcome) × TimerService :=
  s.tasks.foldl
    (fun (decided, s) t =>
      let (result, s) := s.turn t.id
      (decided ++ result.toList, s))
    ([], s)

end TimerService

end PubSub
