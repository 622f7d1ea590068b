import PubSub.Proofs.Reach

/-! # Timers

A timer is set exactly in the phases that wait for one, provided that no timer
fails before it is cancelled. The clock of a phase says whether a timer runs,
has been cancelled and not failed yet, or is not set at all.
-/

namespace PubSub

open Session (Reply)

inductive Clock where
  | off
  | running
  | cancelled
  deriving DecidableEq, Repr

namespace Clock

/-- The clock at the moment a trigger fires; a running timer does not fail. -/
def spend (k : Clock) : Trigger → Option Clock
  | .timerPopped => some .off
  | .timerCancelled => if k = .running then none else some .off
  | _ => some k

/-- The clock after an action. A timer is started only where none is set. -/
def act (k : Clock) : Action → Option Clock
  | .startRetryTimer => if k = .off then some .running else none
  | .cancelRetryTimer => some (if k = .off then .off else .cancelled)
  | .cleanup => some .off
  | _ => some k

end Clock

namespace Phase

def clock : Phase → Clock
  | retryWait | reconnectWait => .running
  | stoppingTimer => .cancelled
  | _ => .off

/-- The clock of a phase, changed by a trigger and its actions, is the clock of the next one. -/
def keepsTime (p : Phase) (trigger : Trigger) : Bool :=
  match p.clock.spend trigger, p.transition trigger with
  | none, _ => true
  | some k, none => k = p.clock
  | some k, some ⟨next, actions⟩ => actions.foldlM Clock.act k = some next.clock

theorem keepsTime_transition (p : Phase) (trigger : Trigger) : p.keepsTime trigger := by
  cases p <;> cases trigger <;> rfl

end Phase

/-- What a clock tells of the timers of a session and of what is under way for them. -/
structure Timed (k : Clock) (c : Course) (due : Awaited → Nat) (cancelled : Nat → Prop) :
    Prop where
  timer : c.timer = if k = .off then none else some c.timers
  ending : k ≠ .off → due (.reply (.timerEnded c.timers)) = 1
  running : k = .running → ¬ cancelled c.timers
  newest : ∀ n, c.timers < n → due (.reply (.timerEnded n)) = 0 ∧ ¬ cancelled n

namespace Turn

/-- The timer was cancelled before the turn or is cancelled in it. -/
def Cancels (before : Nat → Prop) (t : Turn) (n : Nat) : Prop :=
  before n ∨ .request (.cancel n) ∈ t.effects

/-- Of the timers, a cleanup cancels the one that is set. -/
theorem cancel_mem_cleanup (t : Turn) (n : Nat) :
    .request (.cancel n) ∈ t.cleanup.effects ↔
      .request (.cancel n) ∈ t.effects ∨ t.core.timer = some n := by
  have hrow (row : Subscription) : .request (.cancel n) ∉ row.ending := by
    unfold Subscription.ending
    split <;> simp
  have hwork (w : Work) : w.refusal .clientStopped ≠ .request (.cancel n) := by
    cases w <;> simp [Work.refusal]
  simp [effects_cleanup, hrow, hwork, OutstandingSend.ending]

end Turn

namespace Timed

open Turn

variable {k k' : Clock} {c c' : Course} {due due' env : Awaited → Nat}
  {cancelled cancelled' before : Nat → Prop} {t t' : Turn}

theorem congr (h : Timed k c due cancelled)
    (hd : ∀ n, due' (.reply (.timerEnded n)) = due (.reply (.timerEnded n)))
    (hc : ∀ n, cancelled' n → cancelled n) (ht : c'.timer = c.timer) (hn : c'.timers = c.timers) :
    Timed k c' due' cancelled' where
  timer := by rw [ht, hn]; exact h.timer
  ending := by rw [hd, hn]; exact h.ending
  running := by rw [hn]; exact fun hk hx => h.running hk (hc _ hx)
  newest := by
    rw [hn]
    intro n hlt
    exact ⟨by rw [hd]; exact (h.newest n hlt).1, fun hx => (h.newest n hlt).2 (hc n hx)⟩

theorem effects (h : Timed k t.core.course (t.due env) (t.Cancels before)) {es : List Effect}
    (he : t'.effects = t.effects ++ es)
    (hs : ∀ n, .reply (.timerEnded n) ∉ es.flatMap Effect.awaited ∧ .request (.cancel n) ∉ es)
    (ht : t'.core.timer = t.core.timer) (hn : t'.core.timers = t.core.timers) :
    Timed k t'.core.course (t'.due env) (t'.Cancels before) := by
  refine h.congr (fun n => ?_) (fun n hc => ?_) ht hn
  · rw [due_of_effects env _ he, List.count_eq_zero.mpr (hs n).1, Nat.add_zero]
  · rw [Cancels, he, List.mem_append] at hc
    exact hc.imp id fun hc => hc.resolve_right (hs n).2

theorem stays (h : Timed k t.core.course (t.due env) (t.Cancels before)) (hs : t.Stays t') :
    Timed k t'.core.course (t'.due env) (t'.Cancels before) := by
  obtain ⟨es, he, hes⟩ := hs.effects
  refine h.effects he (fun n => ⟨?_, fun hm => ?_⟩) (congrArg Course.timer hs.course)
    (congrArg Course.timers hs.course)
  · rw [List.mem_flatMap]
    rintro ⟨e, hm, ha⟩
    exact List.count_eq_zero.mp (Effect.awaited_of_isSteady (hes e hm) rfl) ha
  · cases hes _ hm

theorem cancelTimer (h : Timed k t.core.course (t.due env) (t.Cancels before)) :
    Timed (if k = .off then .off else .cancelled) t.cancelTimer.core.course
      (t.cancelTimer.due env) (t.cancelTimer.Cancels before) := by
  have htimer : t.core.timer = if k = .off then none else some t.core.timers := h.timer
  rw [core_cancelTimer]
  by_cases hk : k = .off
  · -- Without a timer nothing is cancelled.
    rw [if_pos hk] at htimer ⊢
    have ht : t.cancelTimer = t := by simp only [Turn.cancelTimer, htimer]
    rw [ht, ← hk]
    exact h
  · rw [if_neg hk] at htimer ⊢
    refine ⟨by simp [Core.course, htimer], fun _ => ?_, by simp, fun n hn => ⟨?_, ?_⟩⟩
    · rw [(silent_cancelTimer t).due]
      exact h.ending hk
    · rw [(silent_cancelTimer t).due]
      exact (h.newest n hn).1
    · have hne : n ≠ t.core.timers := Nat.ne_of_gt hn
      simpa [Cancels, htimer, hne] using (h.newest n hn).2

theorem startTimer (h : Timed .off t.core.course (t.due env) (t.Cancels before)) :
    Timed .running t.startTimer.core.course
      (t.startTimer.due env) (t.startTimer.Cancels before) := by
  have htimer : t.core.timer = none := h.timer
  have hnew (n : Nat) (hn : t.core.timers < n) : ¬ t.startTimer.Cancels before n := by
    simpa [Cancels, htimer] using (h.newest n hn).2
  rw [core_startTimer]
  refine ⟨rfl, fun _ => ?_, fun _ => hnew _ (Nat.lt_succ_self _), fun n hn => ⟨?_, hnew n ?_⟩⟩
  · have hz : t.due env (.reply (.timerEnded (t.core.timers + 1))) = 0 :=
      (h.newest _ (Nat.lt_succ_self _)).1
    simp [Core.course, hz]
  · have hne : t.core.timers + 1 ≠ n := Nat.ne_of_lt hn
    simp [hne, (h.newest n (Nat.lt_of_succ_lt hn)).1]
  · exact Nat.lt_of_succ_lt hn

theorem cleanup (h : Timed k t.core.course (t.due env) (t.Cancels before)) :
    Timed .off t.cleanup.core.course (t.cleanup.due env) (t.cleanup.Cancels before) := by
  rw [core_cleanup]
  refine ⟨rfl, by simp, by simp, fun n hn => ⟨?_, ?_⟩⟩
  · rw [(silent_cleanup t).due]
    exact (h.newest n hn).1
  · have htimer : t.core.timer = if k = .off then none else some t.core.timers := h.timer
    have hlt : t.core.timers < n := hn
    have hne : t.core.timer ≠ some n := by
      rw [htimer]
      split
      · simp
      · simpa using Nat.ne_of_lt hlt
    simpa [Cancels, cancel_mem_cleanup, hne] using (h.newest n hn).2

theorem perform {m m' : Marks} (hc : Control m t.core.course (t.due env))
    (h : Timed k t.core.course (t.due env) (t.Cancels before)) {a : Action}
    (hm : m.act a = some m') (ha : k.act a = some k') (closed : Turn → Turn) :
    Timed k' (t.perform closed a).core.course ((t.perform closed a).due env)
      ((t.perform closed a).Cancels before) := by
  cases a with
  | startRetryTimer =>
    simp only [Clock.act, Option.ite_none_right_eq_some, Option.some.injEq] at ha
    obtain ⟨rfl, rfl⟩ := ha
    exact h.startTimer
  | cancelRetryTimer =>
    obtain rfl := Option.some.inj ha
    exact h.cancelTimer
  | cleanup =>
    obtain rfl := Option.some.inj ha
    exact h.cleanup
  | remakeSubscriptions =>
    obtain rfl := Option.some.inj ha
    exact h.stays (stays_remake t)
  | breakConnection =>
    obtain rfl := Option.some.inj ha
    exact h.stays (stays_breakConnection t)
  | replayPendingWork =>
    obtain rfl := Option.some.inj ha
    exact h.stays (stays_replayPending t)
  | openConnection =>
    obtain rfl := Option.some.inj ha
    obtain ⟨e, -, hcore, he⟩ := hc.perform_openConnection hm closed
    exact h.effects he (by simp [Effect.awaited, Request.reply?]) (by simp [hcore])
      (by simp [hcore])
  | closeConnection =>
    obtain rfl := Option.some.inj ha
    rw [hc.perform_closeConnection hm]
    exact h.effects (effects_request ..) (by simp [Effect.awaited, Request.reply?]) rfl rfl
  | succeedPendingStarts | failPendingStarts =>
    obtain rfl := Option.some.inj ha
    exact h.effects (effects_settleStarts t _) (by simp [Effect.awaited]) (by simp [Turn.perform])
      (by simp [Turn.perform])
  | succeedPendingStops =>
    obtain rfl := Option.some.inj ha
    exact h.effects (effects_settleStops t) (by simp [Effect.awaited]) (by simp [Turn.perform])
      (by simp [Turn.perform])
  | resumeStart =>
    obtain rfl := Option.some.inj ha
    refine h.effects (effects_resumeStart t) (fun n => ?_) (by simp [Turn.perform])
      (by simp [Turn.perform])
    split <;> simp [Effect.awaited, Signal.awaited]
  | markEndpointGood =>
    obtain rfl := Option.some.inj ha
    refine h.effects (effects_reportEndpoint t) (by simp [Effect.awaited, Request.reply?])
      (by simp [Turn.perform]) (by simp [Turn.perform])
  | discardConnection | resetSession =>
    obtain rfl := Option.some.inj ha
    exact h.congr (fun _ => rfl) (fun _ => id) rfl rfl
  | requestEndpoint | flushCallbacks | notifyStarting | notifyStarted | notifyRestarted
  | notifyRetrying | notifyStopped | releaseCallbacks =>
    obtain rfl := Option.some.inj ha
    exact h.effects (effects_emit ..) (by simp [Effect.awaited]) rfl rfl

theorem performAll {m m' : Marks} (hc : Control m t.core.course (t.due env))
    (h : Timed k t.core.course (t.due env) (t.Cancels before)) {actions : List Action}
    (hm : actions.foldlM Marks.act m = some m') (ha : actions.foldlM Clock.act k = some k')
    (closed : Turn → Turn) :
    Timed k' (actions.foldl (Turn.perform closed) t).core.course
      ((actions.foldl (Turn.perform closed) t).due env)
      ((actions.foldl (Turn.perform closed) t).Cancels before) := by
  induction actions generalizing m k t with
  | nil => obtain rfl := Option.some.inj ha; exact h
  | cons a actions ih =>
    obtain ⟨m₁, hm₁, hm⟩ := Option.bind_eq_some_iff.mp hm
    obtain ⟨k₁, hk₁, ha⟩ := Option.bind_eq_some_iff.mp ha
    exact ih (hc.perform hm₁ closed) (h.perform hc hm₁ hk₁ closed) hm ha

theorem fire {m : Marks} (hc : Control m t.core.course (t.due env))
    (h : Timed k t.core.course (t.due env) (t.Cancels before)) {trigger : Trigger}
    (hm : t.core.phase.marks.spend trigger = some m)
    (hk : t.core.phase.clock.spend trigger = some k) :
    Timed (t.fire trigger).core.phase.clock (t.fire trigger).core.course
      ((t.fire trigger).due env) ((t.fire trigger).Cancels before) := by
  have hkeep := Phase.keepsTime_transition t.core.phase trigger
  rcases fire_cases t hm with ⟨he, hn, -⟩ | ⟨next, actions, m', hn, ha, -, he⟩
  · simp only [Phase.keepsTime, hk, hn, decide_eq_true_eq] at hkeep
    rw [he, ← hkeep]
    exact h
  · simp only [Phase.keepsTime, hk, hn, decide_eq_true_eq] at hkeep
    have h' : Timed k (t.enter next).core.course ((t.enter next).due env)
        ((t.enter next).Cancels before) :=
      h.effects (effects_enter t next) (by simp [Effect.awaited]) rfl rfl
    rw [he, ((hc.enter next).performAll ha fireClosed).2]
    exact h'.performAll (hc.enter next) ha hkeep fireClosed

section Signals

variable {c : Core} {x : Signal} {d : Awaited → Nat}

theorem passed (h : Timed k c.course d cancelled) (hd : ∀ a, d a = env a + x.awaited.count a)
    (hx : ∀ n popped, x ≠ .timerEnded n popped) :
    Timed k (x.prepare c).course env cancelled ∧ Timed k c.course env cancelled ∧
      ∀ trigger, x.trigger? c = some trigger → k.spend trigger = some k := by
  have hz (n : Nat) : env (.reply (.timerEnded n)) = d (.reply (.timerEnded n)) := by
    rw [hd, List.count_eq_zero.mpr, Nat.add_zero]
    cases x with
    | timerEnded n popped => exact absurd rfl (hx n popped)
    | start p => cases p <;> simp [Signal.awaited]
    | _ => simp [Signal.awaited]
  refine ⟨h.congr hz (fun _ => id) ?_ ?_, h.congr hz (fun _ => id) rfl rfl, ?_⟩
  · cases x with
    | timerEnded n popped => exact absurd rfl (hx n popped)
    | endpointAnswered result =>
      rcases result with e | (e | delay) <;> simp [Signal.prepare, Core.course, Core.recordError_eq]
    | opened k result =>
      cases result <;> simp [Signal.prepare, Core.course, Core.recordError_eq]
    | _ => simp [Signal.prepare, Core.course, Core.recordError_eq]
  · cases x with
    | endpointAnswered result =>
      rcases result with e | (e | delay) <;> simp [Signal.prepare, Core.course, Core.recordError_eq]
    | opened k result =>
      cases result <;> simp [Signal.prepare, Core.course, Core.recordError_eq]
    | _ => simp [Signal.prepare, Core.course, Core.recordError_eq]
  · intro trigger ht
    cases Signal.trigger?_eq_some_iff.mp ht with
    | timerPopped n | timerCancelled n => exact absurd rfl (hx n _)
    | _ => rfl

theorem ended (h : Timed k c.course d cancelled) {n : Nat} {popped : Bool}
    (hd : ∀ a, d a = env a + [Awaited.reply (.timerEnded n)].count a) (ht : c.timer = some n)
    (hc : popped = false → cancelled n) :
    k.spend (if popped then .timerPopped else .timerCancelled) = some .off ∧
      Timed .off ((Signal.timerEnded n popped).prepare c).course env cancelled := by
  have htimer : c.timer = if k = .off then none else some c.timers := h.timer
  rw [ht] at htimer
  have hk : k ≠ .off := by
    intro hk
    simp [hk] at htimer
  obtain rfl : n = c.timers := by simpa [hk] using htimer
  refine ⟨?_, rfl, by simp, by simp, fun n' hn => ⟨?_, (h.newest n' hn).2⟩⟩
  · cases popped with
    | true => rfl
    | false => exact if_neg fun hr => h.running hr (hc rfl)
  · exact Nat.eq_zero_of_le_zero ((h.newest n' hn).1 ▸ hd _ ▸ Nat.le_add_right ..)

/-- The end of a timer that is not set any more does not matter. -/
theorem late (h : Timed k c.course d cancelled) {n : Nat}
    (hd : ∀ a, d a = env a + [Awaited.reply (.timerEnded n)].count a) (ht : c.timer ≠ some n) :
    Timed k c.course env cancelled := by
  refine ⟨h.timer, fun hk => ?_, h.running, fun n' hn => ⟨?_, (h.newest n' hn).2⟩⟩
  · have htimer : c.timer = if k = .off then none else some c.timers := h.timer
    rw [if_neg hk] at htimer
    have hne : n ≠ c.timers := by
      rintro rfl
      exact ht htimer
    have hone := h.ending hk
    rw [hd] at hone
    simpa [Core.course, hne] using hone
  · exact Nat.eq_zero_of_le_zero ((h.newest n' hn).1 ▸ hd _ ▸ Nat.le_add_right ..)

theorem handle {lost : ConnectionId → Topic → Prop} (hs : Sound lost c d)
    (h : Timed c.phase.clock c.course d before) (hd : ∀ a, d a = env a + x.awaited.count a)
    (hown : .lookup ∈ x.awaited → env .resume = 0)
    (hc : ∀ n, x = .timerEnded n false → before n) :
    Timed (c.handle x).core.phase.clock (c.handle x).core.course ((c.handle x).due env)
      ((c.handle x).Cancels before) := by
  have hbegin (n : Nat) : (begin c).Cancels before n → before n := by simp [Cancels]
  unfold Core.handle
  by_cases hx : x.isSteady
  · have hstays := stays_handle (begin c) hx
    have hp : ((begin c).handle x).core.phase = c.phase := congrArg Course.phase hstays.course
    have h' := (h.passed hd (by rintro n popped rfl; cases hx)).2.1
    rw [hp]
    exact stays (h'.congr (fun _ => rfl) hbegin rfl rfl) hstays
  · rw [handle_of_not_isSteady _ (by simpa using hx)]
    cases ht : x.trigger? (begin c).core with
    | none =>
      have h' : Timed c.phase.clock c.course env before := by
        by_cases hend : ∃ n popped, x = .timerEnded n popped
        · obtain ⟨n, popped, rfl⟩ := hend
          exact h.late hd fun hn => by simp [Signal.trigger?, hn] at ht
        · exact (h.passed hd fun n popped he => hend ⟨n, popped, he⟩).2.1
      exact h'.congr (fun _ => rfl) hbegin rfl rfl
    | some trigger =>
      obtain ⟨m, hm, hcontrol⟩ := hs.control.spend hd hown (hs.remade_ne_absent hd) ht
      have h' : ∃ k, c.phase.clock.spend trigger = some k ∧
          Timed k (x.prepare c).course env before := by
        by_cases hend : ∃ n popped, x = .timerEnded n popped
        · obtain ⟨n, popped, rfl⟩ := hend
          simp only [Signal.trigger?, Option.ite_none_right_eq_some, Option.some.injEq] at ht
          obtain ⟨hn, rfl⟩ := ht
          exact ⟨.off, h.ended hd hn (by rintro rfl; exact hc n rfl)⟩
        · obtain ⟨hp, -, hsp⟩ := h.passed hd fun n popped he => hend ⟨n, popped, he⟩
          exact ⟨_, hsp trigger ht, hp⟩
      obtain ⟨k, hk, h'⟩ := h'
      exact fire (t := (begin c).update x.prepare) hcontrol
        (h'.congr (fun _ => rfl) hbegin rfl rfl) (by simpa using hm) (by simpa using hk)

end Signals

end Timed

/-- A timer fails only after it was cancelled. -/
def TimersKept {ℓ : Type} (past : List (Move ℓ)) : Prop :=
  ∀ earlier n e, earlier ++ [.answer (.timerEnded n) (.error e)] <+: past →
    .perform (.request (.cancel n)) ∈ earlier

namespace TimersKept

variable {ℓ : Type} {past more : List (Move ℓ)}

theorem of_append (h : TimersKept (past ++ more)) : TimersKept past :=
  fun earlier n e hp => h earlier n e (hp.trans (List.prefix_append ..))

theorem cancelled (h : TimersKept past) {n : Nat} {e : ClientError}
    (hm : .answer (.timerEnded n) (.error e) ∈ past) : .perform (.request (.cancel n)) ∈ past := by
  obtain ⟨earlier, later, rfl⟩ := List.mem_iff_append.mp hm
  exact List.mem_append_left _ (h earlier n e ⟨later, by simp⟩)

end TimersKept

namespace System

variable {ℓ : Type} {s s' : System ℓ} {past : List (Move ℓ)}

def Cancelled (past : List (Move ℓ)) (s : System ℓ) (n : Nat) : Prop :=
  .perform (.request (.cancel n)) ∈ past ∨ .request (.cancel n) ∈ s.agenda

theorem Cancelled.of_step {m : Move ℓ} (hs : s.step m = some s') (hm : ∀ x, m ≠ .take x) {n : Nat}
    (h : s'.Cancelled (past ++ [m]) n) : s.Cancelled past n := by
  rw [Cancelled, agenda_step hs hm, List.mem_append]
  rcases h with h | h
  · rcases List.mem_append.mp h with h | h
    · exact .inl h
    · obtain rfl := List.mem_singleton.mp h
      exact .inr (.inl (List.mem_singleton_self _))
  · exact .inr (.inr h)

/-- The clock of its phase is right about the timers of the client. -/
def Timely (past : List (Move ℓ)) (s : System ℓ) : Prop :=
  Timed s.client.core.phase.clock s.client.core.course s.due (s.Cancelled past)

theorem Timely.move (h : s.Timely past) {m : Move ℓ} (hs : s.step m = some s')
    (hm : ∀ x, m ≠ .take x) : s'.Timely (past ++ [m]) := by
  unfold Timely
  rw [core_step hs hm]
  exact h.congr (fun n => due_step hs hm _) (fun n hc => hc.of_step hs hm) rfl rfl

theorem Timely.take (hs : s.Coherent past) (h : s.Timely past) (hk : TimersKept past) {x : Signal}
    (hx : s.step (.take x) = some s') : s'.Timely (past ++ [.take x]) := by
  obtain ⟨hd, hown⟩ := hs.beside_take hx
  have hd' := due_eq_due_handle hx
  obtain ⟨ha, rest, hw, rfl⟩ := step_take hx
  have hq : s.queue = x :: rest := by simp [queue, ha, hw]
  have hfailed (n : Nat) (hn : x = .timerEnded n false) : s.Cancelled past n := by
    obtain ⟨result, he, hp⟩ := hs.answered x (hq ▸ List.mem_cons_self ..) (.timerEnded n)
      (by simp [hn, Signal.awaited])
    subst hn
    cases result with
    | ok u => cases he
    | error e => exact .inl (hk.cancelled hp)
  unfold Timely
  rw [hd']
  refine (Timed.handle hs.sound h hd (fun hl => (hown hl).1) hfailed).congr (fun _ => rfl) ?_
    rfl rfl
  rintro n (hc | hc)
  · exact .inl (.inl (by simpa using hc))
  · exact .inr hc

end System

/-- The clocks of every client are right, unless a timer fails by itself. -/
theorem Reached.timely {ℓ : Type} {past : List (Move ℓ)} {s : System ℓ} (h : Reached past s)
    (hk : TimersKept past) : s.Timely past := by
  refine h.turn_induction (P := fun past s => TimersKept past → s.Timely past) ?_
    (fun _ ih hs hm hk => (ih hk.of_append).move hs hm)
    (fun hr ih hs hk => .take hr.coherent (ih hk.of_append) hk.of_append hs) hk
  intro id threshold _
  exact ⟨rfl, by simp [System.new, Client.new, Phase.clock],
    by simp [System.new, Client.new, Phase.clock],
    by simp [System.new, System.due, System.awaited, Client.new, Mailbox.empty,
      System.Cancelled]⟩

end PubSub
