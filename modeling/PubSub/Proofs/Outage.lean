import PubSub.Proofs.Growth
import PubSub.Proofs.Served

/-! # Outages

In an outage every connection fails to open with an error of the network. What
a client does that is started then is known beforehand: it tries its endpoints
in order, round after round, waits between the rounds, and gives up when no
more waits are allowed. Here it is said what may happen meanwhile, and what is
shown of the client.
-/

namespace PubSub

namespace Rotation

/-- The endpoints left in the round, and the waits until no more are allowed. -/
structure Offers (es : List Endpoint) (limit : Nat) (left : List Endpoint)
    (delays : List Duration) (r : Rotation) : Prop where
  endpoints : r.endpoints = es
  start : r.start = 0
  left : es.drop r.tried = left
  delays : r.backoff.answers (delays.length + 1) = delays.map .wait ++ [.exhausted limit]

namespace Offers

variable {es left : List Endpoint} {limit : Nat} {e : Endpoint} {d : Duration}
  {delays : List Duration} {r : Rotation}

theorem found (h : Offers es limit (e :: left) delays r) :
    r.next.1 = .found e ∧ Offers es limit left delays r.next.2 := by
  obtain ⟨rfl, hs, hl, hd⟩ := h
  have he : r.endpoints[r.tried]? = some e := by
    rw [← Nat.add_zero r.tried, ← List.getElem?_drop, hl]
    rfl
  have hlt : r.tried < r.endpoints.length := (List.getElem?_eq_some_iff.mp he).1
  obtain ⟨e', he', hn⟩ := next_of_lt hlt
  rw [index, hs, Nat.zero_add, Nat.mod_eq_of_lt hlt, he] at he'
  obtain rfl : e = e' := Option.some.inj he'
  rw [hn]
  refine ⟨rfl, rfl, hs, ?_, hd⟩
  rw [← List.tail_drop, hl, List.tail_cons]

theorem length_le (h : Offers es limit [] delays r) : r.endpoints.length ≤ r.tried := by
  rw [h.endpoints]
  exact List.drop_eq_nil_iff.mp h.left

theorem wait (h : Offers es limit [] (d :: delays) r) :
    r.next.1 = .wait d ∧ Offers es limit es delays r.next.2 := by
  have hd := h.delays
  rw [List.length_cons, Backoff.answers_cons, List.map_cons, List.cons_append,
    List.cons.injEq] at hd
  rw [next_of_le h.length_le, hd.1]
  exact ⟨rfl, h.endpoints, h.start, List.drop_zero, hd.2⟩

theorem exhausted (h : Offers es limit [] [] r) : r.next.1 = .exhausted limit := by
  have hd := h.delays
  rw [List.length_nil, Backoff.answers_cons, List.map_nil, List.nil_append, List.cons.injEq] at hd
  rw [next_of_le h.length_le, hd.1]
  rfl

theorem of_found (h : Offers es limit left delays r) (hr : r.next.1 = .found e) :
    ∃ left', left = e :: left' ∧ Offers es limit left' delays r.next.2 := by
  cases left with
  | nil =>
    cases delays with
    | nil => rw [h.exhausted] at hr; cases hr
    | cons d delays => rw [h.wait.1] at hr; cases hr
  | cons e' left =>
    obtain ⟨he, hnext⟩ := h.found
    cases he.symm.trans hr
    exact ⟨left, rfl, hnext⟩

theorem of_wait (h : Offers es limit left delays r) (hr : r.next.1 = .wait d) :
    ∃ delays', left = [] ∧ delays = d :: delays' ∧ Offers es limit es delays' r.next.2 := by
  cases left with
  | nil =>
    cases delays with
    | nil => rw [h.exhausted] at hr; cases hr
    | cons d' delays =>
      obtain ⟨hd, hnext⟩ := h.wait
      cases hd.symm.trans hr
      exact ⟨delays, rfl, rfl, hnext⟩
  | cons e' left => rw [h.found.1] at hr; cases hr

theorem of_exhausted {attempts : Nat} (h : Offers es limit left delays r)
    (hr : r.next.1 = .exhausted attempts) : left = [] ∧ delays = [] ∧ attempts = limit := by
  cases left with
  | nil =>
    cases delays with
    | nil =>
      cases h.exhausted.symm.trans hr
      exact ⟨rfl, rfl, rfl⟩
    | cons d' delays => rw [h.wait.1] at hr; cases hr
  | cons e' left => rw [h.found.1] at hr; cases hr

theorem next_ne_overflow (h : Offers es limit left delays r) : r.next.1 ≠ .overflow := by
  cases left with
  | nil =>
    cases delays with
    | nil => simp [h.exhausted]
    | cons d' delays => simp [h.wait.1]
  | cons e' left => simp [h.found.1]

end Offers

end Rotation

/-- A time in which no connection can be opened, and the client that is started then. -/
structure Outage where
  /-- The promise of the start. -/
  start : PromiseId
  /-- What the error of a connection says. -/
  text : ConnectionId → String

namespace Outage

variable (o : Outage)

def error (k : ConnectionId) : ClientError := .network (o.text k)

/-- The move may happen in the outage: the client is started once and not stopped, timers pop,
and no callback fails. Other calls of the application may come at any time. -/
def Allows {ℓ : Type} : Move ℓ → Prop
  | .call _ call promise => call ≠ .stop ∧ (call = .start ↔ promise = o.start)
  | .answer (.opened k) result => result = .error (o.error k)
  | .answer (.timerEnded _) result => result = .ok ()
  | .finish _ result => result = .ok ()
  | .disconnect .. => False
  | _ => True

def Brings : Signal → Prop
  | .start promise => promise = some o.start
  | .work w => w.promise ≠ o.start
  | .opened k result => result = .error (o.error k)
  | .timerEnded _ popped => popped
  | .confirm _ promise => promise ≠ o.start
  | .stop _ | .disconnected .. | .callbackFailed _ => False
  | _ => True

/-- The effect shows how the client gets on: what it opens and waits for, what it notifies of
itself, and the end of the start. -/
def shows : Effect → Bool
  | .request (.connect ..) | .request (.schedule ..) => true
  | .notify .drain | .notify (.delivery ..) | .notify (.unsubscribed ..) => false
  | .notify _ => true
  | .settle promise _ => promise = o.start
  | _ => false

def shown {ℓ : Type} (past : List (Move ℓ)) : List Effect :=
  (past.flatMap Move.performed).filter o.shows

/-- What is shown of trying endpoints, after so many connections. -/
def attempts (connections : Nat) : List Endpoint → List Effect
  | [] => []
  | e :: es =>
    let k : ConnectionId := ⟨connections + 1⟩
    .request (.connect k e) :: .notify (.retrying (some (o.error k))) ::
      attempts (connections + 1) es

/-- What is shown from the middle of a round on, after so many connections and timers. -/
def rounds (es : List Endpoint) (limit connections timers : Nat) (left : List Endpoint) :
    List Duration → List Effect
  | [] =>
    o.attempts connections left ++
      [.settle o.start (.error (.retryLimit limit)), .notify (.stopped (some (.retryLimit limit)))]
  | d :: delays =>
    o.attempts connections left ++
      .notify (.retrying none) :: .request (.schedule (timers + 1) d) ::
        rounds es limit (connections + left.length) (timers + 1) es delays

/-- What is shown of a client from its start on, on so many endpoints and with these waits. -/
def trace (es : List Endpoint) (limit : Nat) (delays : List Duration) : List Effect :=
  .notify .starting :: o.rounds es limit 0 0 es delays

variable {o} {es left : List Endpoint} {limit connections timers : Nat} {delays : List Duration}

@[simp]
theorem rounds_cons (e : Endpoint) : o.rounds es limit connections timers (e :: left) delays =
    .request (.connect ⟨connections + 1⟩ e) ::
      .notify (.retrying (some (o.error ⟨connections + 1⟩))) ::
        o.rounds es limit (connections + 1) timers left delays := by
  cases delays with
  | nil => rfl
  | cons d delays =>
    simp only [rounds, attempts, List.cons_append, List.length_cons, Nat.add_assoc, Nat.add_comm 1]

end Outage

def Effect.opened? : Effect → Option Endpoint
  | request (.connect _ endpoint) => some endpoint
  | _ => none

def Effect.scheduled? : Effect → Option Duration
  | request (.schedule _ delay) => some delay
  | _ => none

def Effect.failure? : Effect → Option ClientError
  | notify (.retrying cause) => cause
  | _ => none

namespace Outage

variable {o : Outage} {es left : List Endpoint} {limit connections timers : Nat}
  {delays : List Duration}

theorem opened_attempts : (o.attempts connections left).filterMap Effect.opened? = left := by
  induction left generalizing connections with
  | nil => rfl
  | cons e left ih => exact congrArg (e :: ·) ih

/-- The endpoints are tried in order, once in each round. -/
theorem opened_rounds : (o.rounds es limit connections timers left delays).filterMap
    Effect.opened? = left ++ (List.replicate delays.length es).flatten := by
  induction delays generalizing connections timers left with
  | nil => simp [rounds, opened_attempts, Effect.opened?]
  | cons d delays ih =>
    rw [rounds, List.filterMap_append, opened_attempts, List.filterMap_cons_none rfl,
      List.filterMap_cons_none rfl, ih, List.length_cons, List.replicate_succ, List.flatten_cons]

theorem opened_trace : (o.trace es limit delays).filterMap Effect.opened? =
    (List.replicate (delays.length + 1) es).flatten := by
  rw [trace, List.filterMap_cons_none rfl, opened_rounds, List.replicate_succ, List.flatten_cons]

theorem scheduled_attempts : (o.attempts connections left).filterMap Effect.scheduled? = [] := by
  induction left generalizing connections with
  | nil => rfl
  | cons e left ih => exact ih

theorem scheduled_rounds : (o.rounds es limit connections timers left delays).filterMap
    Effect.scheduled? = delays := by
  induction delays generalizing connections timers left with
  | nil => simp [rounds, scheduled_attempts, Effect.scheduled?]
  | cons d delays ih =>
    rw [rounds, List.filterMap_append, scheduled_attempts, List.nil_append]
    exact congrArg (d :: ·) ih

theorem scheduled_trace : (o.trace es limit delays).filterMap Effect.scheduled? = delays := by
  rw [trace, List.filterMap_cons_none rfl, scheduled_rounds]

theorem failures_attempts : (o.attempts connections left).filterMap Effect.failure? =
    (List.range' (connections + 1) left.length).map (o.error ⟨·⟩) := by
  induction left generalizing connections with
  | nil => rfl
  | cons e left ih => exact congrArg (o.error ⟨connections + 1⟩ :: ·) ih

/-- Every connection that fails to open is told of once, with its own error. -/
theorem failures_rounds : (o.rounds es limit connections timers left delays).filterMap
    Effect.failure? = (List.range' (connections + 1) (left.length + delays.length * es.length)).map
      (o.error ⟨·⟩) := by
  induction delays generalizing connections timers left with
  | nil => simp [rounds, failures_attempts, Effect.failure?]
  | cons d delays ih =>
    have hlen : left.length + (delays.length + 1) * es.length =
        left.length + (es.length + delays.length * es.length) := by
      rw [Nat.succ_mul, Nat.add_comm (delays.length * es.length)]
    rw [rounds, List.filterMap_append, failures_attempts, List.length_cons, hlen,
      List.filterMap_cons_none rfl, List.filterMap_cons_none rfl, ih,
      Nat.add_right_comm, ← List.map_append, List.range'_append_1]

theorem failures_trace : (o.trace es limit delays).filterMap Effect.failure? =
    (List.range' 1 ((delays.length + 1) * es.length)).map (o.error ⟨·⟩) := by
  rw [trace, List.filterMap_cons_none rfl, failures_rounds, Nat.succ_mul, Nat.add_comm es.length]

theorem count_attempts : (o.attempts connections left).count (.notify (.retrying none)) = 0 := by
  induction left generalizing connections with
  | nil => rfl
  | cons e left ih => simp [attempts, ih]

theorem count_rounds : (o.rounds es limit connections timers left delays).count
    (.notify (.retrying none)) = delays.length := by
  induction delays generalizing connections timers left with
  | nil => simp [rounds, count_attempts]
  | cons d delays ih => simp [rounds, count_attempts, ih]

theorem count_trace :
    (o.trace es limit delays).count (.notify (.retrying none)) = delays.length := by
  simp [trace, count_rounds]

theorem opened?_of_shows {e : Effect} (h : o.shows e = false) : e.opened? = none := by
  unfold Effect.opened?
  split
  · cases h
  · rfl

theorem scheduled?_of_shows {e : Effect} (h : o.shows e = false) : e.scheduled? = none := by
  unfold Effect.scheduled?
  split
  · cases h
  · rfl

theorem failure?_of_shows {e : Effect} (h : o.shows e = false) : e.failure? = none := by
  unfold Effect.failure?
  split
  · cases h
  · rfl

/-- What is counted of the shown effects is counted of all of them. -/
theorem filterMap_shown {ℓ β : Type} {f : Effect → Option β} {past : List (Move ℓ)}
    (h : ∀ {e}, o.shows e = false → f e = none) :
    (o.shown past).filterMap f = (past.flatMap Move.performed).filterMap f := by
  rw [shown, List.filterMap_filter]
  refine List.filterMap_congr fun e _ => ?_
  cases he : o.shows e with
  | true => rfl
  | false => exact (h he).symm

end Outage

end PubSub
