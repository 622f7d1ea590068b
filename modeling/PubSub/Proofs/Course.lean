import PubSub.Proofs.Due

/-! # The course of a session

Some signals steer the session: after a small change of the core they fire a
trigger, or they come too late and change nothing. All other signals deal with
what the session tracks and leave it on its course.
-/

namespace PubSub

/-- The part of a core that decides the course of the session. -/
structure Course where
  phase : Phase
  endpoint : Option Endpoint
  connection : Option ConnectionId
  connections : Nat
  retryDelay : Duration
  timer : Option Nat
  timers : Nat
  lastError : Option ClientError
  stoppedByUser : Bool
  pendingStarts : List PromiseId
  pendingStops : List PromiseId

def Core.course (c : Core) : Course where
  phase := c.phase
  endpoint := c.endpoint
  connection := c.connection
  connections := c.connections
  retryDelay := c.retryDelay
  timer := c.timer
  timers := c.timers
  lastError := c.lastError
  stoppedByUser := c.stoppedByUser
  pendingStarts := c.pendingStarts
  pendingStops := c.pendingStops

namespace Course

def act (c : Course) : Action → Course
  | .openConnection => { c with
      connections := c.connections + 1
      connection := some ⟨c.connections + 1⟩ }
  | .discardConnection => { c with connection := none }
  | .cleanup => { c with connection := none, timer := none }
  | .startRetryTimer => { c with timers := c.timers + 1, timer := some (c.timers + 1) }
  | .markEndpointGood => { c with retryDelay := .zero }
  | .resetSession => { c with lastError := none, stoppedByUser := false, retryDelay := .zero }
  | .notifyRetrying | .notifyStopped => { c with lastError := none }
  | .succeedPendingStarts | .failPendingStarts => { c with pendingStarts := [] }
  | .succeedPendingStops => { c with pendingStops := [] }
  | _ => c

@[simp]
theorem phase_act (c : Course) (a : Action) : (c.act a).phase = c.phase := by
  cases a <;> rfl

end Course

def Awaited.isTracked : Awaited → Bool
  | reply (.sent ..) | reply (.subscribed ..) | reply (.unsubscribed ..) | remade => true
  | _ => false

def Effect.isSteady : Effect → Bool
  | settle .. | finishSend .. | takeDrain => true
  | request (.send ..) | request (.subscribe ..) | request (.unsubscribe ..)
  | request (.confirm ..) => true
  | notify (.delivery ..) | notify (.unsubscribed ..) => true
  | post .subscriptionsRemade => true
  | _ => false

theorem Effect.awaited_of_isSteady {e : Effect} (h : e.isSteady) {a : Awaited}
    (ha : a.isTracked = false) : e.awaited.count a = 0 := by
  rw [List.count_eq_zero]
  intro hm
  unfold Effect.isSteady at h
  split at h <;>
    simp_all [Effect.awaited, Request.reply?, Signal.awaited, Awaited.isTracked]

/-- The course of a session, and the effects by which the session stays on it. -/
def courseView : View Course := ⟨Core.course, Effect.isSteady⟩

theorem apart_courseView : courseView.Apart where
  part := fun _ _ _ _ _ _ => rfl
  allows := by
    intro e he
    unfold Effect.isRoutine at he
    split at he <;> first | rfl | cases he

namespace Turn

/-- The session stays on its course from one moment of a turn to another. -/
abbrev Stays (t t' : Turn) : Prop := Frame courseView t t'

namespace Stays

variable {t t' : Turn}

theorem course (h : t.Stays t') : t'.core.course = t.core.course := h.part

theorem due (h : t.Stays t') (env : Awaited → Nat) {a : Awaited}
    (ha : a.isTracked = false) : t'.due env a = t.due env a := by
  obtain ⟨es, he, hs⟩ := h.effects
  have hz : (es.flatMap Effect.awaited).count a = 0 := by
    rw [List.count_eq_zero, List.mem_flatMap]
    rintro ⟨e, hm, hae⟩
    exact List.count_eq_zero.mp (Effect.awaited_of_isSteady (hs e hm) ha) hae
  rw [due_of_effects env a he, hz, Nat.add_zero]

end Stays

section Steady

variable (t : Turn)

theorem stays_onDelivered (k : ConnectionId) (m : InboundMessage) :
    t.Stays (t.onDelivered k m) := by
  unfold onDelivered
  split
  · split
    · exact .refl _ t
    · dsimp only
      split_ifs
      · exact (Frame.refl courseView t).emit rfl
      · exact (Frame.refl courseView t).emit rfl
      · exact ((Frame.refl courseView t).update rfl).emit rfl
  · exact .refl _ t

theorem stays_onConfirm (id : ConfirmationId) (p : PromiseId) : t.Stays (t.onConfirm id p) := by
  unfold onConfirm
  split
  · exact (Frame.refl courseView t).emit rfl
  · exact (((Frame.refl courseView t).update rfl).trans
      (frame_acknowledge _ rfl)).emit rfl

theorem stays_breakConnection : t.Stays t.breakConnection :=
  ((((Frame.refl courseView t).update rfl).trans
    (Frame.foldl (frame_abandonSend · apart_courseView _) ..)).update rfl).emit rfl

theorem stays_remake : t.Stays t.remake := frame_remake t apart_courseView

theorem stays_onWork (w : Work) : t.Stays (t.onWork w) := frame_onWork t apart_courseView w

theorem stays_replayPending : t.Stays t.replayPending := frame_replayPending t apart_courseView

theorem stays_putRow (row : Subscription) : t.Stays (t.putRow row) :=
  frame_putRow t apart_courseView row

theorem stays_eraseRow (topic : Topic) : t.Stays (t.eraseRow topic) :=
  frame_eraseRow t apart_courseView topic

theorem stays_settleAll (ps : List PromiseId) (result : Outcome) :
    t.Stays (t.settleAll ps result) :=
  frame_settleAll t apart_courseView ps result

end Steady

end Turn

namespace Signal

def isSteady : Signal → Bool
  | work _ | sent .. | subscribed .. | unsubscribed .. | delivered .. | confirm ..
  | autoConfirm _ => true
  | _ => false

/-- What the signal changes before its trigger fires. -/
def prepare : Signal → Core → Core
  | start promise => fun c => { c with pendingStarts := c.pendingStarts ++ promise.toList }
  | stop promise => fun c =>
    { c with pendingStops := c.pendingStops ++ [promise], stoppedByUser := true }
  | endpointAnswered (.ok (.found endpoint)) => fun c => { c with endpoint := some endpoint }
  | endpointAnswered (.ok (.retryAfter delay)) => fun c => { c with retryDelay := delay }
  | endpointAnswered (.error e) => Core.recordError e
  | opened _ (.error e) => fun c => ({ c with connection := none }).recordError e
  | closed _ => fun c => { c with connection := none }
  | timerEnded .. => fun c => { c with timer := none }
  | disconnected _ cause => Core.recordError cause
  | callbackFailed cause => Core.recordError cause
  | _ => id

/-- The trigger that the signal fires, unless it comes too late. -/
def trigger? (c : Core) : Signal → Option Trigger
  | start _ => some .start
  | stop _ | callbackFailed _ => some .stop
  | endpointAnswered (.ok (.found _)) => some .endpointFound
  | endpointAnswered (.ok (.retryAfter _)) => some .endpointRetry
  | endpointAnswered (.error _) => some .endpointFatal
  | opened k (.ok _) => if c.isCurrent k then some .openSucceeded else none
  | opened k (.error e) =>
    if c.isCurrent k then some (if e.isRetryable then .openRetryable else .openFatal) else none
  | closed k => if c.isCurrent k then some .connectionClosed else none
  | timerEnded timer popped =>
    if c.timer = some timer then some (if popped then .timerPopped else .timerCancelled) else none
  | disconnected k cause =>
    if c.isCurrent k then some (if cause.isFatal then .replaced else .networkError) else none
  | flushed => some .callbacksFlushed
  | subscriptionsRemade => some .subscriptionsRemade
  | work _ | sent .. | subscribed .. | unsubscribed .. | delivered .. | confirm ..
  | autoConfirm _ => none

inductive Fires (c : Core) : Signal → Trigger → Prop
  | start (promise : Option PromiseId) : Fires c (.start promise) .start
  | stop (promise : PromiseId) : Fires c (.stop promise) .stop
  | callbackFailed (cause : ClientError) : Fires c (.callbackFailed cause) .stop
  | endpointFound (endpoint : Endpoint) :
    Fires c (.endpointAnswered (.ok (.found endpoint))) .endpointFound
  | endpointRetry (delay : Duration) :
    Fires c (.endpointAnswered (.ok (.retryAfter delay))) .endpointRetry
  | endpointFatal (cause : ClientError) :
    Fires c (.endpointAnswered (.error cause)) .endpointFatal
  | openSucceeded (k : ConnectionId) (current : c.isCurrent k) :
    Fires c (.opened k (.ok ())) .openSucceeded
  | openRetryable (k : ConnectionId) (cause : ClientError) (current : c.isCurrent k)
    (retryable : cause.isRetryable) : Fires c (.opened k (.error cause)) .openRetryable
  | openFatal (k : ConnectionId) (cause : ClientError) (current : c.isCurrent k)
    (retryable : cause.isRetryable = false) : Fires c (.opened k (.error cause)) .openFatal
  | connectionClosed (k : ConnectionId) (current : c.isCurrent k) :
    Fires c (.closed k) .connectionClosed
  | timerPopped (timer : Nat) (set : c.timer = some timer) :
    Fires c (.timerEnded timer true) .timerPopped
  | timerCancelled (timer : Nat) (set : c.timer = some timer) :
    Fires c (.timerEnded timer false) .timerCancelled
  | networkError (k : ConnectionId) (cause : ClientError) (current : c.isCurrent k)
    (fatal : cause.isFatal = false) : Fires c (.disconnected k cause) .networkError
  | replaced (k : ConnectionId) (cause : ClientError) (current : c.isCurrent k)
    (fatal : cause.isFatal) : Fires c (.disconnected k cause) .replaced
  | callbacksFlushed : Fires c .flushed .callbacksFlushed
  | subscriptionsRemade : Fires c .subscriptionsRemade .subscriptionsRemade

theorem trigger?_eq_some_iff {x : Signal} {c : Core} {trigger : Trigger} :
    x.trigger? c = some trigger ↔ x.Fires c trigger := by
  constructor
  · intro h
    cases x with
    | start promise => cases h; exact .start promise
    | stop promise => cases h; exact .stop promise
    | callbackFailed cause => cases h; exact .callbackFailed cause
    | endpointAnswered result =>
      rcases result with cause | (endpoint | delay) <;> cases h
      · exact .endpointFatal cause
      · exact .endpointFound endpoint
      · exact .endpointRetry delay
    | opened k result =>
      cases result with
      | ok =>
        simp only [trigger?, Option.ite_none_right_eq_some, Option.some.injEq] at h
        obtain ⟨hk, rfl⟩ := h
        exact .openSucceeded k hk
      | error cause =>
        simp only [trigger?, Option.ite_none_right_eq_some, Option.some.injEq] at h
        obtain ⟨hk, rfl⟩ := h
        split
        · next hc => exact .openRetryable k cause hk hc
        · next hc => exact .openFatal k cause hk (by simpa using hc)
    | closed k =>
      simp only [trigger?, Option.ite_none_right_eq_some, Option.some.injEq] at h
      obtain ⟨hk, rfl⟩ := h
      exact .connectionClosed k hk
    | timerEnded timer popped =>
      simp only [trigger?, Option.ite_none_right_eq_some, Option.some.injEq] at h
      obtain ⟨ht, rfl⟩ := h
      cases popped with
      | true => exact .timerPopped timer ht
      | false => exact .timerCancelled timer ht
    | disconnected k cause =>
      simp only [trigger?, Option.ite_none_right_eq_some, Option.some.injEq] at h
      obtain ⟨hk, rfl⟩ := h
      split
      · next hc => exact .replaced k cause hk hc
      · next hc => exact .networkError k cause hk (by simpa using hc)
    | flushed => cases h; exact .callbacksFlushed
    | subscriptionsRemade => cases h; exact .subscriptionsRemade
    | _ => cases h
  · intro h
    cases h <;> simp_all [trigger?]

theorem trigger?_of_isSteady {x : Signal} (hx : x.isSteady) (c : Core) : x.trigger? c = none := by
  cases x with
  | work | sent | subscribed | unsubscribed | delivered | confirm | autoConfirm => rfl
  | _ => cases hx

@[simp]
theorem phase_prepare (x : Signal) (c : Core) : (x.prepare c).phase = c.phase := by
  cases x with
  | endpointAnswered result =>
    rcases result with e | (e | d) <;> simp [prepare, Core.recordError_eq]
  | opened k result => cases result <;> simp [prepare, Core.recordError_eq]
  | _ => simp [prepare, Core.recordError_eq]

end Signal

namespace Turn

theorem stays_handle (t : Turn) {x : Signal} (hx : x.isSteady) : t.Stays (t.handle x) := by
  cases x with
  | work w => exact stays_onWork t w
  | sent k id result => exact frame_onSent t apart_courseView k id result
  | subscribed k topic result => exact frame_onSubscribed t apart_courseView k topic result
  | unsubscribed k topic result => exact frame_onUnsubscribed t apart_courseView k topic result
  | delivered k m => exact stays_onDelivered t k m
  | confirm id p => exact stays_onConfirm t id p
  | autoConfirm d => exact frame_acknowledge t rfl
  | _ => cases hx

/-- A signal that is not steady fires its trigger, or comes too late. -/
theorem handle_of_not_isSteady (t : Turn) {x : Signal} (hx : x.isSteady = false) :
    t.handle x = match x.trigger? t.core with
      | none => t
      | some trigger => (t.update x.prepare).fire trigger := by
  cases x with
  | endpointAnswered result => rcases result with e | (e | d) <;> rfl
  | opened k result =>
    by_cases hk : t.core.isCurrent k <;>
      cases result <;> simp only [handle, onOpened, Signal.trigger?, hk] <;> rfl
  | closed k =>
    by_cases hk : t.core.isCurrent k <;> simp only [handle, onClosed, Signal.trigger?, hk] <;> rfl
  | timerEnded timer popped =>
    by_cases ht : t.core.timer = some timer <;>
      simp only [handle, onTimerEnded, Signal.trigger?, ht] <;> rfl
  | disconnected k cause =>
    by_cases hk : t.core.isCurrent k <;>
      simp only [handle, onDisconnected, Signal.trigger?, hk] <;> rfl
  | start | stop | callbackFailed | flushed | subscriptionsRemade => rfl
  | _ => cases hx

end Turn

end PubSub
