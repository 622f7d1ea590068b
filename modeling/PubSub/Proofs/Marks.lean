import Mathlib.Data.Fintype.OfMap
import PubSub.Phase

/-! # What a phase tells

A phase tells of many things how they stand: whether there is a connection,
which answers are under way, what shape the rows are in. The marks of a phase
say this, every trigger and every action changes the marks in its own way, and
the table of the transitions is right about the marks.
-/

namespace PubSub

/-- How a signal stands that the client posts to itself when there is a reason for it. -/
inductive Posting where
  | absent
  /-- It is under way once if there is the reason for it, and otherwise not at all. -/
  | exact
  | any
  deriving DecidableEq, Repr

namespace Posting

def Holds (reason : Prop) [Decidable reason] (n : Nat) : Posting → Prop
  | absent => n = 0
  | exact => n = if reason then 1 else 0
  | any => True

/-- The reason may have come or gone. -/
def blur : Posting → Posting
  | absent => absent
  | exact | any => any

def le (p q : Posting) : Bool := p = q || q = any

theorem Holds.mono {p q : Posting} {reason : Prop} [Decidable reason] {n : Nat}
    (h : p.Holds reason n) (hle : p.le q) : q.Holds reason n := by
  cases q <;> simp_all [le, Holds]

theorem Holds.blur {p : Posting} {reason reason' : Prop} [Decidable reason] [Decidable reason']
    {n : Nat} (h : p.Holds reason n) : p.blur.Holds reason' n := by
  cases p with
  | absent => exact h
  | exact | any => trivial

end Posting

inductive RowShape where
  | empty
  /-- The server has acknowledged all of them. -/
  | settled
  | live
  | broken
  | renewing
  | any
  deriving DecidableEq, Repr

namespace RowShape

def le (r r' : RowShape) : Bool := r = r' || r' = any || r = empty && r' ≠ live

theorem eq_live_of_le {r : RowShape} (h : r.le live) : r = live := by
  cases r <;> first | rfl | cases h

def renewed : RowShape → RowShape
  | renewing => settled
  | r => r

def interrupted : RowShape → RowShape
  | any => any
  | _ => broken

end RowShape

structure Marks where
  connected : Bool := false
  /-- The endpoint of the next connection is known. -/
  located : Bool := false
  lookups : Nat := 0
  /-- Openings of the current connection that have no answer yet. -/
  opens : Nat := 0
  closes : Nat := 0
  flushes : Nat := 0
  resume : Posting := .absent
  remade : Posting := .absent
  /-- There may be stops that have not succeeded yet. -/
  stops : Bool := true
  rows : RowShape := .any
  /-- What is under way on the current connection belongs to the rows. -/
  linked : Bool := true
  /-- There is neither kept work nor an unanswered send. -/
  idle : Bool := false
  deriving DecidableEq, Repr

namespace Marks

def accepting : Marks := { connected := true, rows := .live }

/-- What the first marks tell is at least what the second ones do. -/
def le (m n : Marks) : Bool :=
  m.connected = n.connected && (m.located || !n.located) && m.lookups = n.lookups &&
    m.opens = n.opens && m.closes = n.closes && m.flushes = n.flushes &&
    m.resume.le n.resume && m.remade.le n.remade && (n.stops || !m.stops) &&
    m.rows.le n.rows && (m.linked || !n.linked) && (m.idle || !n.idle)

def disconnected (m : Marks) : Marks :=
  { m with connected := false, opens := 0, closes := 0, linked := true }

/-- The marks once an answer to a lookup is being handled; what the client posted to itself
before it asked was handled before the answer. -/
def answered (m : Marks) : Option Marks :=
  if m.lookups = 0 then none
  else some { m with lookups := m.lookups - 1, resume := .absent, remade := .absent }

def opened (m : Marks) : Option Marks :=
  if m.connected ∧ m.opens ≠ 0 then some { m with opens := m.opens - 1 } else none

/-- The marks at the moment a trigger fires; none where it cannot fire. -/
def spend (m : Marks) : Trigger → Option Marks
  | .start => some { m with resume := m.resume.blur }
  | .stop => some { m with stops := true }
  | .endpointFound => m.answered.map fun m => { m with located := true }
  | .endpointRetry | .endpointFatal => m.answered
  | .openSucceeded => m.opened
  | .openRetryable | .openFatal => m.opened.map disconnected
  | .subscriptionsRemade =>
    match m.remade with
    | .absent => none
    | .exact => some { m with remade := .absent, rows := m.rows.renewed }
    | .any => some m
  | .networkError | .replaced => if m.connected then some m else none
  | .timerPopped | .timerCancelled => some m
  | .connectionClosed => if m.connected ∧ m.closes ≠ 0 then some m.disconnected else none
  | .callbacksFlushed => if m.flushes = 0 then none else some { m with flushes := m.flushes - 1 }

/-- The marks after an action; none where the action would not do what it is for. -/
def act (m : Marks) : Action → Option Marks
  | .requestEndpoint => some { m with lookups := m.lookups + 1 }
  | .openConnection =>
    if m.located ∧ (m.rows = .empty ∨ m.rows = .broken) then
      some { m with connected := true, located := false, opens := 1, closes := 0, linked := true }
    else none
  | .closeConnection => if m.connected then some { m with closes := m.closes + 1 } else none
  | .remakeSubscriptions =>
    if m.connected ∧ m.linked ∧ m.rows = .broken ∧ m.remade = .absent then
      some { m with rows := .renewing, remade := .exact }
    else none
  | .breakConnection =>
    some { m with
      rows := m.rows.interrupted, remade := m.remade.blur, linked := false, idle := false }
  | .discardConnection => some m.disconnected
  | .cleanup => some { m.disconnected with rows := .empty, remade := m.remade.blur, idle := true }
  | .flushCallbacks => some { m with flushes := m.flushes + 1 }
  | .succeedPendingStarts | .failPendingStarts => some { m with resume := m.resume.blur }
  | .succeedPendingStops => some { m with stops := false }
  | .replayPendingWork =>
    if (m.rows = .empty ∨ m.rows = .settled) ∧ { m with rows := .live } = accepting then
      some accepting
    else none
  | .resumeStart => if m.resume = .absent then some { m with resume := .exact } else none
  | .startRetryTimer | .cancelRetryTimer | .markEndpointGood | .resetSession | .notifyStarting
  | .notifyStarted | .notifyRestarted | .notifyRetrying | .notifyStopped
  | .releaseCallbacks => some m

end Marks

-- With these instances a statement about the whole table of the transitions is decidable.

instance : Fintype Phase :=
  .ofList [.stopped, .startingLookup, .startingOpen, .retryWait, .retryLookup, .retryOpen, .started,
    .reconnectWait, .reconnectLookup, .reconnectOpen, .remaking, .stoppingLookup, .stoppingOpen,
    .stoppingTimer, .stoppingRemake, .stoppingClose, .stoppingFlush] (by rintro ⟨⟩ <;> decide)

instance : Fintype Trigger :=
  .ofList [.start, .stop, .endpointFound, .endpointRetry, .endpointFatal, .openSucceeded,
    .openRetryable, .openFatal, .subscriptionsRemade, .networkError, .replaced, .timerPopped,
    .timerCancelled, .connectionClosed, .callbacksFlushed] (by rintro ⟨⟩ <;> decide)

namespace Phase

def isLookup : Phase → Bool
  | startingLookup | retryLookup | reconnectLookup | stoppingLookup => true
  | _ => false

def isOpen : Phase → Bool
  | startingOpen | retryOpen | reconnectOpen | stoppingOpen => true
  | _ => false

def isTimed : Phase → Bool
  | retryWait | reconnectWait | stoppingTimer => true
  | _ => false

def isConnected : Phase → Bool
  | startingOpen | retryOpen | started | reconnectOpen | remaking | stoppingOpen
  | stoppingRemake | stoppingClose => true
  | _ => false

def rowShape : Phase → RowShape
  | stopped | startingLookup | startingOpen | retryWait | retryLookup | retryOpen
  | stoppingFlush => .empty
  | started => .live
  | reconnectWait | reconnectLookup | reconnectOpen => .broken
  | remaking => .renewing
  | stoppingLookup | stoppingOpen | stoppingTimer | stoppingRemake | stoppingClose => .any

def remade : Phase → Posting
  | startingOpen | retryWait | retryOpen | started | reconnectWait | reconnectOpen => .absent
  | remaking | stoppingRemake => .exact
  | _ => .any

def resume : Phase → Posting
  | stopped => .exact
  | startingLookup | stoppingLookup => .any
  | _ => .absent

def marks (p : Phase) : Marks where
  connected := p.isConnected
  lookups := if p.isLookup then 1 else 0
  opens := if p.isOpen then 1 else 0
  closes := if p = stoppingClose then 1 else 0
  flushes := if p = stoppingFlush then 1 else 0
  resume := p.resume
  remade := p.remade
  stops := p ≠ stopped
  rows := p.rowShape
  idle := p = stopped ∨ p = stoppingFlush

/-- The marks of a phase, changed by a trigger and its actions, tell the marks of the next one. -/
def tells (p : Phase) (trigger : Trigger) : Bool :=
  match p.marks.spend trigger, p.transition trigger with
  | none, _ => true
  | some m, none => m.le p.marks
  | some m, some ⟨next, actions⟩ => (actions.foldlM Marks.act m).any (·.le next.marks)

theorem eq_started_of_accept {p : Phase} (h : p.view.work = .accept) : p = started := by
  revert h
  cases p <;> decide

/-- Kept work is done again only by a client that gets started. -/
theorem next_of_replayPendingWork {p : Phase} {trigger : Trigger} {next : Phase}
    {actions : List Action} (h : p.transition trigger = some ⟨next, actions⟩)
    (ha : .replayPendingWork ∈ actions) : next = .started := by
  have hall : ∀ (p : Phase) (trigger : Trigger), ∀ n ∈ p.transition trigger,
      .replayPendingWork ∈ n.actions → n.next = .started := by decide
  exact hall _ _ _ h ha

theorem tells_transition (p : Phase) (trigger : Trigger) : p.tells trigger := by
  cases p <;> cases trigger <;> rfl

end Phase

end PubSub
