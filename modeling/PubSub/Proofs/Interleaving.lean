import PubSub.Proofs.Course
import PubSub.Proofs.Run

/-! # Calls beside turns

The application calls while the client is in the middle of a turn. A send is
counted before its signal is posted, and a send that ends is counted off after
its promise is completed. Here each of these is a step of its own, so that all
else may come in between; only the calls of the application do not overlap one
another, and a turn goes on when the send that it ends has been let out.
-/

namespace PubSub

/-- What happens to a send window, as far as notifications go. -/
inductive WindowEvent where
  /-- A send is refused room, and a notification is owed. -/
  | refused
  /-- The application is notified that the sends have drained. -/
  | drained
  /-- The count of sends returns to zero. -/
  | emptied
  /-- The turn begins in which a connection that was up is lost. -/
  | broken
  /-- The turn begins in which the session is cleaned up. -/
  | closed
  deriving DecidableEq, Repr

def Action.windowEvent? : Action → Option WindowEvent
  | breakConnection => some .broken
  | cleanup => some .closed
  | _ => none

def Job.windowEvent? {ℓ : Type} (job : Job ℓ) : Option WindowEvent :=
  match job.task with
  | .notification .drain => some .drained
  | _ => none

theorem Client.checkNotStopped_congr {ℓ : Type} {c c' : Client ℓ} (h : c.state = c'.state) :
    c.checkNotStopped = c'.checkNotStopped := by
  rw [checkNotStopped, checkNotStopped, h]

theorem Client.send_eq_ok_iff {ℓ : Type} (c : Client ℓ) (topic : String) (payload : Payload)
    (options : SendOptions) {sent : (PromiseId × Bool) × Client ℓ} :
    c.send topic payload options = .ok sent ↔
      validateDestination topic = .ok () ∧ c.checkNotStopped = .ok () ∧
        sent = ((c.promises.length, c.window.enter.1),
          { c with
            promises := c.promises ++ [.new]
            window := c.window.enter.2
            mailbox := c.mailbox.post (.work (.send ⟨
              { topic := topic, payload := payload, qos := options.qos, ttl := options.ttl
                properties := options.properties }, c.promises.length⟩)) }) := by
  unfold send
  cases hv : validateDestination topic <;> cases hn : c.checkNotStopped <;>
    simp [bind, Except.bind, pure, Except.pure, newPromise, post, eq_comm]

@[simp]
theorem Client.window_settle {ℓ : Type} (c : Client ℓ) (p : PromiseId) (result : Outcome) :
    (c.settle p result).2.window = c.window := by
  unfold settle
  split <;> rfl

namespace System

variable {ℓ : Type}

def withWindow (s : System ℓ) (window : SendWindow) : System ℓ :=
  { s with client := { s.client with window := window } }

/-- The promise of a send that ends is completed, and the window is left alone. -/
def settle (s : System ℓ) (p : PromiseId) (result : Outcome) (rest : List Effect) : System ℓ :=
  let (jobs, client) := s.client.settle p result
  { s with client := client, agenda := rest, jobs := s.jobs ++ jobs }

theorem settle_eq (s : System ℓ) (p : PromiseId) (result : Outcome) (rest : List Effect) :
    s.settle p result rest = { s.perform (.finishSend p result) rest with
      client := { (s.perform (.finishSend p result) rest).client with window := s.client.window }
      jobs := s.jobs ++ (s.client.settle p result).1 } := by
  have hclient : (s.client.settle p result).2 =
      { (s.client.settle p result).2 with window := s.client.window } := by
    rw [← s.client.window_settle p result]
  refine (congrArg (fun client => { s with
    client := client, agenda := rest, jobs := s.jobs ++ (s.client.settle p result).1 })
      hclient).trans ?_
  simp [perform, Client.perform, Effect.reply?, Effect.connection?, Effect.delivery?]

def windowEvents (s : System ℓ) : Move ℓ → List WindowEvent
  | .take x =>
    match (x.trigger? s.client.core).bind s.client.core.phase.transition with
    | none => []
    | some transition => transition.actions.filterMap Action.windowEvent?
  | .perform e => (s.client.perform e).1.filterMap Job.windowEvent?
  | _ => []

end System

/-- A send that is counted and whose signal is not posted yet. -/
structure Entry where
  /-- The state that the call has seen. -/
  seen : ClientState
  topic : String
  payload : Payload
  options : SendOptions
  /-- The count of sends, with this one. -/
  count : Nat
  accepting : Bool
  /-- The notification is owed, for a send that is refused room. -/
  noted : Bool := false
  deriving DecidableEq, Repr

inductive Leaving where
  /-- The promise is completed. -/
  | settled
  /-- The send is counted off, and it was the last one. -/
  | emptied
  deriving DecidableEq, Repr

structure Sent where
  promise : PromiseId
  accepting : Bool
  /-- The count of sends when it was made, with itself. -/
  count : Nat
  deriving DecidableEq, Repr

/-- A system with a send on its way in and another one on its way out. -/
structure Concurrent (ℓ : Type) where
  system : System ℓ
  entering : Option Entry := none
  leaving : Option Leaving := none
  sends : List Sent := []
  events : List WindowEvent := []

inductive Tick (ℓ : Type) where
  | move (m : Move ℓ)
  /-- The arguments of a send are checked, and it is counted. -/
  | count (seen : ClientState) (topic : String) (payload : Payload) (options : SendOptions)
  /-- The notification for a send that is refused room is owed. -/
  | note
  /-- The signal of the send is posted, and the call returns. -/
  | submit (promise : PromiseId)
  /-- The promise of a send that ends is completed. -/
  | settle
  | uncount
  /-- The notification is taken because the window has emptied. -/
  | drain

namespace Concurrent

variable {ℓ : Type}

def new (id : String) (threshold : Nat) : Concurrent ℓ := { system := .new id threshold }

def window (c : Concurrent ℓ) : SendWindow := c.system.client.window

/-- The moves that are possible besides a send that comes in and one that goes out. -/
def admits (c : Concurrent ℓ) : Move ℓ → Bool
  | .call _ (.send ..) _ | .perform (.finishSend ..) => false
  | .call .. => c.entering.isNone
  | .take _ | .perform _ => c.leaving.isNone
  | _ => true

def move (c : Concurrent ℓ) (m : Move ℓ) : Option (Concurrent ℓ) :=
  if c.admits m then
    (c.system.step m).map fun s =>
      { c with system := s, events := c.events ++ c.system.windowEvents m }
  else none

def count (c : Concurrent ℓ) (seen : ClientState) (topic : String) (payload : Payload)
    (options : SendOptions) : Option (Concurrent ℓ) :=
  match c.entering, { c.system.client with state := seen }.send topic payload options with
  | none, .ok _ =>
    let (accepting, window) := c.window.count
    let entry : Entry :=
      { seen := seen, topic := topic, payload := payload, options := options
        count := window.undrained, accepting := accepting }
    some { c with system := c.system.withWindow window, entering := some entry }
  | _, _ => none

def note (c : Concurrent ℓ) : Option (Concurrent ℓ) :=
  match c.entering with
  | none => none
  | some entry =>
    if entry.accepting ∨ entry.noted then none
    else
      some { c with
        system := c.system.withWindow c.window.owe
        entering := some { entry with noted := true }
        events := c.events ++ [.refused] }

def submit (c : Concurrent ℓ) (promise : PromiseId) : Option (Concurrent ℓ) :=
  match c.entering with
  | none => none
  | some entry =>
    if entry.accepting ∨ entry.noted then
      let call : Call := .send entry.topic entry.payload entry.options
      (c.system.make entry.seen call promise).map fun s =>
        { c with
          system := s.withWindow c.window
          entering := none
          sends := c.sends ++ [⟨promise, entry.accepting, entry.count⟩] }
    else none

def settle (c : Concurrent ℓ) : Option (Concurrent ℓ) :=
  match c.leaving, c.system.agenda with
  | none, .finishSend p result :: rest =>
    some { c with system := c.system.settle p result rest, leaving := some .settled }
  | _, _ => none

def uncount (c : Concurrent ℓ) : Option (Concurrent ℓ) :=
  match c.leaving with
  | some .settled =>
    let (emptied, window) := c.window.uncount
    some { c with
      system := c.system.withWindow window
      leaving := if emptied then some .emptied else none
      events := c.events ++ if window.undrained = 0 then [.emptied] else [] }
  | _ => none

def drain (c : Concurrent ℓ) : Option (Concurrent ℓ) :=
  match c.leaving with
  | some .emptied =>
    let (due, window) := c.window.takeDrain
    let jobs := Client.drainJobs due
    some { c with
      system := { c.system.withWindow window with jobs := c.system.jobs ++ jobs }
      leaving := none
      events := c.events ++ jobs.filterMap Job.windowEvent? }
  | _ => none

def tick (c : Concurrent ℓ) : Tick ℓ → Option (Concurrent ℓ)
  | .move m => c.move m
  | .count seen topic payload options => c.count seen topic payload options
  | .note => c.note
  | .submit promise => c.submit promise
  | .settle => c.settle
  | .uncount => c.uncount
  | .drain => c.drain

def run (c : Concurrent ℓ) (ticks : List (Tick ℓ)) : Option (Concurrent ℓ) :=
  ticks.foldlM tick c

variable {c : Concurrent ℓ} {s s' : System ℓ}

theorem run_append (xs ys : List (Tick ℓ)) :
    c.run (xs ++ ys) = (c.run xs).bind (·.run ys) := List.foldlM_append ..

theorem run_cons (x : Tick ℓ) (xs : List (Tick ℓ)) :
    c.run (x :: xs) = (c.tick x).bind (·.run xs) := List.foldlM_cons ..

theorem run_call (he : c.entering = none) {seen : ClientState} {topic : String} {payload : Payload}
    {options : SendOptions} {p : PromiseId}
    (hs : c.system.step (.call seen (.send topic payload options) p) = some s') :
    ∃ ticks c', c.run ticks = some c' ∧ c'.system = s' ∧ c'.entering = none ∧
      c'.leaving = c.leaving ∧
      c'.sends = c.sends ++ [⟨p, c.window.enter.1, c.window.undrained + 1⟩] := by
  obtain ⟨-, client, hmake, rfl⟩ := System.step_call hs
  cases hsent : { c.system.client with state := seen }.send topic payload options with
  | error e =>
    simp only [Call.make, hsent] at hmake
    cases hmake
  | ok sent =>
    obtain ⟨hv, hn, rfl⟩ := (Client.send_eq_ok_iff ..).mp hsent
    simp only [Call.make, hsent, Except.map, Except.ok.injEq, Prod.mk.injEq] at hmake
    obtain ⟨rfl, rfl⟩ := hmake
    -- The window is another one when the signal is posted.
    have hsend (client : Client ℓ) (hc : client.state = seen) :=
      (Client.send_eq_ok_iff client topic payload options).mpr
        ⟨hv, (Client.checkNotStopped_congr hc).trans hn, rfl⟩
    by_cases hw : c.system.client.window.undrained + 1 < c.system.client.window.threshold
    · refine ⟨[.count seen topic payload options, .submit c.system.client.promises.length], ?_⟩
      simp [run, tick, count, he, submit, window, System.withWindow, System.make, Call.make,
        hsend, hw, SendWindow.count, SendWindow.enter, Except.map]
    · refine ⟨[.count seen topic payload options, .note,
        .submit c.system.client.promises.length], ?_⟩
      simp [run, tick, count, he, note, submit, window, System.withWindow, System.make, Call.make,
        hsend, hw, SendWindow.count, SendWindow.enter, Except.map]

theorem run_perform (hl : c.leaving = none) {p : PromiseId} {result : Outcome}
    (hs : c.system.step (.perform (.finishSend p result)) = some s') :
    ∃ ticks c', c.run ticks = some c' ∧ c'.system = s' ∧ c'.entering = c.entering ∧
      c'.leaving = none := by
  obtain ⟨rest, ha, rfl⟩ := System.step_perform hs
  by_cases hw : c.system.client.window.undrained ≤ 1
  · refine ⟨[.settle, .uncount, .drain], ?_⟩
    simp [run, tick, settle, System.settle, hl, ha, uncount, drain, window, System.withWindow, hw,
      SendWindow.uncount, SendWindow.takeDrain, System.perform, Client.perform, SendWindow.leave,
      Effect.reply?, Effect.connection?, Effect.delivery?]
  · refine ⟨[.settle, .uncount], ?_⟩
    simp [run, tick, settle, System.settle, hl, ha, uncount, window, System.withWindow, hw,
      SendWindow.uncount, System.perform, Client.perform, SendWindow.leave,
      Effect.reply?, Effect.connection?, Effect.delivery?, Client.drainJobs]

/-- Every run of moves is a run of ticks. -/
theorem of_run {id : String} {threshold : Nat} {moves : List (Move ℓ)}
    (h : (System.new id threshold).run moves = some s) :
    ∃ ticks c, (new id threshold).run ticks = some c ∧ c.system = s ∧ c.entering = none ∧
      c.leaving = none := by
  refine System.run_induction (P := fun _ s => ∃ ticks c, (new id threshold).run ticks = some c ∧
    c.system = s ∧ c.entering = none ∧ c.leaving = none)
      ⟨[], new id threshold, rfl, rfl, rfl, rfl⟩ ?_ h
  rintro _ _ m s' - ⟨ticks, c, hr, rfl, he, hl⟩ hs
  have hmore : ∃ more c', c.run more = some c' ∧ c'.system = s' ∧ c'.entering = none ∧
      c'.leaving = none := by
    by_cases hm : c.admits m
    · refine ⟨[.move m], { c with
        system := s', events := c.events ++ c.system.windowEvents m }, ?_, rfl, he, hl⟩
      simp only [run_cons, tick, move, hm, if_true, hs]
      rfl
    · cases m with
      | call seen call p =>
        cases call with
        | send topic payload options =>
          obtain ⟨more, c', hr, hs, he, hl', -⟩ := run_call he hs
          exact ⟨more, c', hr, hs, he, hl'.trans hl⟩
        | _ => simp [admits, he] at hm
      | perform e =>
        cases e with
        | finishSend p result =>
          obtain ⟨more, c', hr, hs, he', hl⟩ := run_perform hl hs
          exact ⟨more, c', hr, hs, he'.trans he, hl⟩
        | _ => simp [admits, hl] at hm
      | _ => simp [admits, hl] at hm
  obtain ⟨more, c', hr', hs'⟩ := hmore
  exact ⟨ticks ++ more, c', by rw [run_append, hr]; exact hr', hs'⟩

end Concurrent

end PubSub
