import PubSub.Proofs.Promises

/-! # Stops and starts

A stop that is handled fails every start before it, and only a later start
brings the client back, unless the client is already stopped and about to
resume a start that came while it stopped: such a stop finds nothing to do, and
the start takes effect after it.
-/

namespace PubSub

namespace Signal

def starts : Signal → List PromiseId
  | start p => p.toList
  | _ => []

def isStop : Signal → Bool
  | stop _ | callbackFailed _ => true
  | _ => false

theorem pendingStarts_prepare (x : Signal) (c : Core) :
    (x.prepare c).pendingStarts = c.pendingStarts ++ x.starts := by
  cases x with
  | endpointAnswered result =>
    rcases result with e | (e | delay) <;> simp [prepare, starts, Core.recordError_eq]
  | opened k result => cases result <;> simp [prepare, starts, Core.recordError_eq]
  | _ => simp [prepare, starts, Core.recordError_eq]

theorem eq_start_of_trigger {x : Signal} {c : Core} (h : x.trigger? c = some .start) :
    ∃ p, x = .start p := by
  cases trigger?_eq_some_iff.mp h with
  | start p => exact ⟨p, rfl⟩

theorem starts_of_isStop {x : Signal} (hx : x.isStop) :
    x.starts = [] ∧ x.isSteady = false ∧ ∀ c, x.trigger? c = some .stop := by
  cases x with
  | stop | callbackFailed => exact ⟨rfl, rfl, fun _ => rfl⟩
  | _ => cases hx

end Signal

namespace Turn

variable {m m' : Marks} {due env : Awaited → Nat} {t t' t'' : Turn}

/-- The pending starts are kept, or all of them are settled, from one moment of a turn to
another. -/
def KeepsStarts (t t' : Turn) : Prop :=
  ∃ es, t'.effects = t.effects ++ es ∧ (t'.core.pendingStarts = t.core.pendingStarts ∨
    t'.core.pendingStarts = [] ∧ ∃ result, ∀ p ∈ t.core.pendingStarts, .settle p result ∈ es)

namespace KeepsStarts

theorem of_effects {es : List Effect} (he : t'.effects = t.effects ++ es)
    (hs : t'.core.pendingStarts = t.core.pendingStarts) : t.KeepsStarts t' :=
  ⟨es, he, .inl hs⟩

theorem refl (t : Turn) : t.KeepsStarts t := of_effects (List.append_nil _).symm rfl

theorem trans (h : t.KeepsStarts t') (h' : t'.KeepsStarts t'') : t.KeepsStarts t'' := by
  obtain ⟨es, he, hs⟩ := h
  obtain ⟨es', he', hs'⟩ := h'
  refine ⟨es ++ es', by rw [he', he, List.append_assoc], ?_⟩
  rcases hs with hs | ⟨hs, result, hr⟩
  · rw [hs] at hs'
    refine hs'.imp id fun ⟨hs', result, hr⟩ => ⟨hs', result, fun p hp => ?_⟩
    exact List.mem_append_right _ (hr p hp)
  · refine .inr ⟨?_, result, fun p hp => List.mem_append_left _ (hr p hp)⟩
    rcases hs' with hs' | ⟨hs', -⟩
    · exact hs'.trans hs
    · exact hs'

theorem stays (h : t.Stays t') : t.KeepsStarts t' := by
  obtain ⟨es, he, -⟩ := h.effects
  exact of_effects he (congrArg Course.pendingStarts h.course)

theorem settleStarts (t : Turn) (result : Outcome) : t.KeepsStarts (t.settleStarts result) :=
  ⟨_, effects_settleStarts t result, .inr ⟨by simp, result, fun _ hp =>
    List.mem_map_of_mem (f := (Effect.settle · result)) hp⟩⟩

theorem perform (hc : Control m t.core.course due) {a : Action} (ha : m.act a = some m')
    (closed : Turn → Turn) : t.KeepsStarts (t.perform closed a) := by
  cases a with
  | openConnection =>
    obtain ⟨e, -, hcore, he⟩ := hc.perform_openConnection ha closed
    exact of_effects he (by rw [hcore])
  | closeConnection =>
    rw [hc.perform_closeConnection ha]
    exact of_effects (effects_request ..) rfl
  | succeedPendingStarts | failPendingStarts => exact settleStarts ..
  | remakeSubscriptions => exact stays (stays_remake t)
  | breakConnection => exact stays (stays_breakConnection t)
  | replayPendingWork => exact stays (stays_replayPending t)
  | cleanup =>
    have he := t.effects_cleanup
    simp only [List.append_assoc] at he
    exact of_effects he (by simp [Turn.perform, core_cleanup])
  | succeedPendingStops =>
    exact of_effects (effects_settleStops t) (by simp [Turn.perform])
  | startRetryTimer =>
    exact of_effects ((effects_startTimer t).trans (List.append_assoc ..)) (by simp [Turn.perform])
  | cancelRetryTimer => exact of_effects (effects_cancelTimer t) (by simp [Turn.perform])
  | markEndpointGood => exact of_effects (effects_reportEndpoint t) (by simp [Turn.perform])
  | resumeStart => exact of_effects (effects_resumeStart t) (by simp [Turn.perform])
  | discardConnection | resetSession => exact of_effects (List.append_nil _).symm rfl
  | requestEndpoint | flushCallbacks | notifyStarting | notifyStarted | notifyRestarted
  | notifyRetrying | notifyStopped | releaseCallbacks => exact of_effects (effects_emit ..) rfl

theorem performAll (hc : Control m t.core.course (t.due env)) {actions : List Action}
    (ha : actions.foldlM Marks.act m = some m') (closed : Turn → Turn) :
    t.KeepsStarts (actions.foldl (Turn.perform closed) t) := by
  induction actions generalizing m t with
  | nil => exact refl t
  | cons a actions ih =>
    obtain ⟨m₁, ha₁, ha⟩ := Option.bind_eq_some_iff.mp ha
    exact (perform hc ha₁ closed).trans (ih (hc.perform ha₁ closed) ha)

theorem fire (hc : Control m t.core.course (t.due env)) {trigger : Trigger}
    (hm : t.core.phase.marks.spend trigger = some m) : t.KeepsStarts (t.fire trigger) := by
  rcases fire_cases t hm with ⟨he, -, -⟩ | ⟨next, actions, m', -, ha, -, he⟩
  · rw [he]
    exact refl t
  · rw [he]
    exact (of_effects (effects_enter t next) rfl).trans (performAll (hc.enter next) ha fireClosed)

end KeepsStarts

end Turn

namespace Phase

/-- The client is stopped or on the way there. -/
def isStopped (p : Phase) : Bool := p.isStopping || p = stopped

theorem onStop_eq {p : Phase} (hp : p ≠ stopped) :
    ∃ actions, p.onStop = ⟨p.onStop.next, .failPendingStarts :: actions⟩ := by
  cases p with
  | stopped => exact absurd rfl hp
  | _ => exact ⟨_, rfl⟩

theorem isStopped_onStop (p : Phase) : p.onStop.next.isStopped := by
  cases p <;> rfl

/-- Only a start leads out of the stopping phases, and only from the last one. -/
theorem isStopped_next {p : Phase} (hp : p.isStopped) {trigger : Trigger}
    (ht : trigger = .start → p ≠ .stopped) :
    (((p.transition trigger).map (·.next)).getD p).isStopped := by
  revert p trigger
  decide

end Phase

namespace Turn

variable {m : Marks} {env : Awaited → Nat} {t : Turn}

theorem fire_stop (hc : Control m t.core.course (t.due env))
    (hm : t.core.phase.marks.spend .stop = some m) (hp : t.core.phase ≠ .stopped) :
    (t.fire .stop).core.pendingStarts = [] ∧
      ∃ e, ∀ p ∈ t.core.pendingStarts, .settle p (.error e) ∈ (t.fire .stop).effects := by
  obtain ⟨actions, hstop⟩ := Phase.onStop_eq hp
  have htransition : t.core.phase.transition .stop =
    some ⟨t.core.phase.onStop.next, .failPendingStarts :: actions⟩ := congrArg some hstop
  rcases fire_cases t hm with ⟨-, hn, -⟩ | ⟨next, actions', m', hn, ha, -, he⟩
  · cases htransition.symm.trans hn
  · obtain ⟨rfl, rfl⟩ :
        t.core.phase.onStop.next = next ∧ .failPendingStarts :: actions = actions' := by
      simpa using htransition.symm.trans hn
    rw [List.foldlM_cons] at ha
    obtain ⟨m₁, ha₁, hrest⟩ := Option.bind_eq_some_iff.mp ha
    -- The starts fail in the first action, and the others keep that.
    obtain ⟨es, hes, hs⟩ := KeepsStarts.performAll ((hc.enter _).perform ha₁ fireClosed) hrest
      fireClosed
    rw [he, List.foldl_cons]
    refine ⟨?_, t.core.lastError.getD .clientStopped, ?_⟩
    · simp only [perform, core_settleStarts] at hs ⊢
      exact hs.elim id (·.1)
    · intro p hp
      rw [hes]
      refine List.mem_append_left _ ?_
      simp only [perform, effects_settleStarts, core_enter]
      exact List.mem_append_right _ (List.mem_map_of_mem (f := (Effect.settle · _)) hp)

end Turn

/-- The client is stopped or on the way there, and no start waits. -/
structure Core.Quiet (c : Core) : Prop where
  phase : c.phase.isStopped
  starts : c.pendingStarts = []

theorem Core.effects_stop_of_stopped {c : Core} (hp : c.phase = .stopped) {x : Signal}
    (hx : x.isStop) : (c.handle x).effects =
      .publish .stopped :: (x.prepare c).pendingStops.map (.settle · (.ok ())) := by
  obtain ⟨-, hsteady, htrigger⟩ := Signal.starts_of_isStop hx
  rw [Core.handle, Turn.handle_of_not_isSteady _ hsteady, htrigger]
  simp [Turn.fire, Turn.fireWith, hp, Phase.transition, Phase.onStop, Turn.perform, Phase.view]

namespace Sound

open Turn

variable {lost : ConnectionId → Topic → Prop} {c : Core} {d env : Awaited → Nat} {x : Signal}

/-- A signal either leaves the starts pending or settles all of them, its own included. -/
theorem starts_handle (h : Sound lost c d) (hd : ∀ a, d a = env a + x.awaited.count a)
    (hown : .lookup ∈ x.awaited → env .resume = 0) :
    (c.handle x).core.pendingStarts = c.pendingStarts ++ x.starts ∨
      (c.handle x).core.pendingStarts = [] ∧
        ∃ result, ∀ p ∈ c.pendingStarts ++ x.starts, .settle p result ∈ (c.handle x).effects := by
  have hnone (hx : x.starts = []) {t : Turn} (hk : (begin c).KeepsStarts t) :
      t.core.pendingStarts = c.pendingStarts ++ x.starts ∨ t.core.pendingStarts = [] ∧
        ∃ result, ∀ p ∈ c.pendingStarts ++ x.starts, .settle p result ∈ t.effects := by
    obtain ⟨es, he, hs⟩ := hk
    rw [hx, List.append_nil, he]
    exact hs
  unfold Core.handle
  by_cases hx : x.isSteady
  · refine hnone ?_ (.stays (stays_handle (begin c) hx))
    cases x with
    | start => cases hx
    | _ => rfl
  · rw [handle_of_not_isSteady _ (by simpa using hx)]
    cases ht : x.trigger? (begin c).core with
    | none =>
      refine hnone ?_ (.refl _)
      cases x with
      | start => cases ht
      | _ => rfl
    | some trigger =>
      obtain ⟨m, hm, hc⟩ := h.control.spend hd hown (h.remade_ne_absent hd) ht
      obtain ⟨es, he, hs⟩ :=
        KeepsStarts.fire (t := (begin c).update x.prepare) hc (by simpa using hm)
      rw [core_update, x.pendingStarts_prepare, core_begin] at hs
      rw [he]
      exact hs

/-- A stop fails the pending starts, unless the client is stopped already. -/
theorem stop_handle (h : Sound lost c d) (hd : ∀ a, d a = env a + x.awaited.count a)
    (hx : x.isStop) (hp : c.phase ≠ .stopped) :
    (c.handle x).core.pendingStarts = [] ∧
      ∃ e, ∀ p ∈ c.pendingStarts, .settle p (.error e) ∈ (c.handle x).effects := by
  obtain ⟨hstarts, hsteady, htrigger⟩ := Signal.starts_of_isStop hx
  have hown : .lookup ∈ x.awaited → env .resume = 0 := by
    cases x with
    | stop | callbackFailed => simp [Signal.awaited]
    | _ => cases hx
  obtain ⟨m, hm, hc⟩ := h.control.spend hd hown (h.remade_ne_absent hd) (htrigger c)
  have hfire :=
    fire_stop (t := (begin c).update x.prepare) hc (by simpa using hm) (by simpa using hp)
  rw [core_update, x.pendingStarts_prepare, hstarts, List.append_nil] at hfire
  unfold Core.handle
  rw [handle_of_not_isSteady _ hsteady, htrigger]
  exact hfire

theorem quiet_of_stop (h : Sound lost c d) (hd : ∀ a, d a = env a + x.awaited.count a)
    (hx : x.isStop) (hs : c.phase = .stopped → c.pendingStarts = []) : (c.handle x).core.Quiet := by
  obtain ⟨hstarts, hsteady, htrigger⟩ := Signal.starts_of_isStop hx
  have hown : .lookup ∈ x.awaited → env .resume = 0 := by
    cases x with
    | stop | callbackFailed => simp [Signal.awaited]
    | _ => cases hx
  constructor
  · rw [h.phase_handle hd hown, htrigger]
    exact c.phase.isStopped_onStop
  · by_cases hp : c.phase = .stopped
    · have := h.starts_handle hd hown
      rw [hstarts, List.append_nil, hs hp] at this
      exact this.elim id (·.1)
    · exact (h.stop_handle hd hx hp).1

theorem quiet_handle (h : Sound lost c d) (hd : ∀ a, d a = env a + x.awaited.count a)
    (hown : .lookup ∈ x.awaited → env .resume = 0) (hq : c.Quiet) (hx : x.starts = []) :
    (c.handle x).core.Quiet := by
  constructor
  · rw [h.phase_handle hd hown]
    cases ht : x.trigger? c with
    | none => exact hq.phase
    | some trigger =>
      refine Phase.isStopped_next hq.phase ?_
      rintro rfl hstopped
      -- A stopped client without pending starts has none to resume.
      have hres : Posting.Holds _ _ _ := h.control.resume
      obtain ⟨p, rfl⟩ := Signal.eq_start_of_trigger ht
      obtain rfl : p = none := by simpa [Signal.starts] using hx
      have hone : d .resume = env .resume + 1 := by simp [hd, Signal.awaited]
      simp [hstopped, Phase.marks, Phase.resume, Posting.Holds, Core.course, hq.starts] at hres
      omega
  · have := h.starts_handle hd hown
    rw [hx, List.append_nil, hq.starts] at this
    exact this.elim id (·.1)

end Sound

end PubSub
