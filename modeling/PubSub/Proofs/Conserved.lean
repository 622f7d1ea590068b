import PubSub.Proofs.Holding
import PubSub.Proofs.Reach

/-! # Promises are conserved

Performing the actions of a transition and handling a signal neither lose a
promise nor double it. So every promise that was handed to the application is
held in exactly one place until it is completed, and it is completed once.
-/

namespace PubSub

theorem Subscription.promises_ending (row : Subscription) :
    row.ending.flatMap Effect.promises = row.promises := by
  unfold ending
  split <;> simp [List.flatMap_map, Effect.promises, Effect.settled]

theorem Effect.promises_map {α : Type} {f : α → Effect} {g : α → PromiseId}
    (h : ∀ x, (f x).promises = [g x]) (xs : List α) :
    (xs.map f).flatMap Effect.promises = xs.map g := by
  rw [List.flatMap_map, List.map_eq_flatMap]
  exact List.flatMap_congr fun x _ => h x

theorem Work.promises_refusal (cause : ClientError) (w : Work) :
    (w.refusal cause).promises = [w.promise] := by
  cases w <;> rfl

@[simp]
theorem Subscription.promises_remake (row : Subscription) : row.remake.promises = row.promises := by
  unfold remake
  split <;> rfl

/-- A lost connection leaves the promises of a row in the row, or in the work to do again. -/
theorem Subscription.count_interrupt (row : Subscription) (p : PromiseId) :
    row.interrupt.promises.count p + (row.recovered.map Work.promise).count p =
      row.promises.count p := by
  have hunsub : (row.unsubscribing.toList.map Work.unsubscribe).map Work.promise =
      (row.unsubscribing.map (·.promise)).toList := by cases row.unsubscribing <;> rfl
  simp only [promises, interrupt, recovered, List.map_append, hunsub, List.count_append,
    Option.toList_none, Option.map_none, List.map_nil, List.count_nil]
  omega

namespace Subscriptions

theorem count_interrupt (rows : Subscriptions) (p : PromiseId) :
    (rows.interrupt.flatMap Subscription.promises).count p +
        (rows.recovered.map Work.promise).count p =
      (rows.flatMap Subscription.promises).count p := by
  induction rows with
  | nil => rfl
  | cons row rows ih =>
    have hrow := row.count_interrupt p
    simp only [interrupt, recovered, List.map_cons, List.flatMap_cons, List.map_append,
      List.count_append] at ih ⊢
    omega

theorem promises_remake (rows : Subscriptions) :
    rows.remake.flatMap Subscription.promises = rows.flatMap Subscription.promises := by
  simp [remake, List.flatMap_map]

end Subscriptions

namespace Turn

variable {m m' : Marks} {lost : ConnectionId → Topic → Prop} {env : Awaited → Nat} {t : Turn}
  {p : PromiseId}

theorem owed_breakConnection (t : Turn) : t.breakConnection.owed p = t.owed p := by
  refine owed_of_effects (n := 0) ((effects_breakConnection t).trans (List.append_assoc ..)) ?_
  have hsends := ((List.filter_append_perm
    (fun send : OutstandingSend => decide (send.request.message.qos = .atMostOnce))
    t.core.outstanding).map (·.request.promise)).count_eq p
  have hrows := t.core.subscriptions.count_interrupt p
  simp only [List.map_append, List.count_append] at hsends
  have hweak (sends : List OutstandingSend) :
      (sends.map (·.ending (.ok ()))).flatMap Effect.promises = sends.map (·.request.promise) :=
    Effect.promises_map (fun _ => rfl) sends
  have hstrong (sends : List OutstandingSend) :
      (sends.map (Work.send ·.request)).map Work.promise = sends.map (·.request.promise) := by
    rw [List.map_map]
    rfl
  simp only [core_breakConnection, Core.count_held, List.map_append, List.flatMap_append, hweak,
    hstrong, List.count_append, List.map_nil, List.count_nil, List.flatMap_singleton,
    Effect.promises, Effect.settled]
  omega

theorem owed_cleanup (t : Turn) : t.cleanup.owed p = t.owed p := by
  have he := t.effects_cleanup
  simp only [List.append_assoc] at he
  refine owed_of_effects (n := 0) he ?_
  have hrows : (t.core.subscriptions.flatMap Subscription.ending).flatMap Effect.promises =
      t.core.subscriptions.flatMap Subscription.promises := by
    rw [List.flatMap_assoc]
    exact List.flatMap_congr fun row _ => row.promises_ending
  have hsends : (t.core.outstanding.map (·.ending (.error .clientStopped))).flatMap
      Effect.promises = t.core.outstanding.map (·.request.promise) :=
    Effect.promises_map (fun _ => rfl) _
  have hwork : (t.core.pendingWork.map (·.refusal .clientStopped)).flatMap Effect.promises =
      t.core.pendingWork.map Work.promise :=
    Effect.promises_map (fun w => w.promises_refusal _) _
  have htimer : (t.core.timer.toList.map (Effect.request <| .cancel ·)).flatMap Effect.promises =
      [] := by cases t.core.timer <;> rfl
  simp only [core_cleanup, Core.count_held, List.flatMap_append, hrows, hsends, hwork, htimer,
    List.count_append, List.map_nil, List.flatMap_nil, List.count_nil, List.flatMap_singleton,
    Effect.promises, Effect.settled]
  omega

theorem owed_remake (t : Turn) : t.remake.owed p = t.owed p := by
  cases hk : t.core.connection with
  | none =>
    simp only [remake, hk]
    exact owed_emit ..
  | some k =>
    obtain ⟨hc, he⟩ := remake_of_connection t hk
    refine owed_of_effects (n := 0) he ?_
    have hnone (params : List SubscribeParams) :
        (params.map (Effect.request <| .subscribe k ·)).flatMap Effect.promises = [] := by
      simp [List.flatMap_map, Effect.promises, Effect.settled]
    rw [hc, Core.count_held, Core.count_held]
    simp only [Subscriptions.promises_remake]
    split
    · rfl
    · simp only [hnone, List.count_nil]

theorem owed_settleStarts (t : Turn) (result : Outcome) :
    (t.settleStarts result).owed p = t.owed p := by
  refine owed_of_effects (n := 0) (effects_settleStarts t result) ?_
  rw [core_settleStarts, Effect.promises_map (fun _ => rfl), List.map_id']
  simp only [Core.count_held, List.count_nil]
  omega

theorem owed_settleStops (t : Turn) : t.settleStops.owed p = t.owed p := by
  refine owed_of_effects (n := 0) (effects_settleStops t) ?_
  rw [core_settleStops, Effect.promises_map (fun _ => rfl), List.map_id']
  simp only [Core.count_held, List.count_nil]
  omega

theorem owed_replayPending (h : t.core.subscriptions.Tidy) : t.replayPending.owed p = t.owed p := by
  have hreplay := owed_replay (p := p) (t := t.update fun c => { c with pendingWork := [] }) h
    t.core.pendingWork
  rw [replayPending, hreplay]
  simp only [owed, effects_update, core_update, Core.count_held, List.map_nil, List.count_nil]
  omega

end Turn

theorem Tracking.tidy {m : Marks} {lost : ConnectionId → Topic → Prop} {c : Core}
    {due : Awaited → Nat} (h : Tracking m lost c due) (hm : m.rows ≠ .any) :
    c.subscriptions.Tidy := by
  refine ⟨h.sorted, fun row hrow hs => ?_⟩
  have hadm := h.shape row hrow
  cases hr : m.rows with
  | empty => rw [hr] at hadm; cases hadm
  | settled => rw [hr] at hadm; exact hadm.unsubscribing
  | live => rw [hr] at hadm; exact (Subscription.Live.settled hadm hs).unsubscribing
  | broken => rw [hr] at hadm; exact hadm.unsubscribing
  | renewing => rw [hr] at hadm; exact hadm.elim (·.unsubscribing) (·.unsubscribing)
  | any => exact absurd hr hm

namespace Turn

variable {m m' : Marks} {lost : ConnectionId → Topic → Prop} {d env : Awaited → Nat} {t : Turn}
  {p : PromiseId}

theorem owed_cancelTimer (t : Turn) : t.cancelTimer.owed p = t.owed p := by
  unfold cancelTimer
  split
  · rfl
  · exact owed_emit ..

theorem owed_perform (hc : Control m t.core.course (t.due env))
    (h : Tracking m lost t.core (t.due env)) {a : Action} (ha : m.act a = some m')
    (closed : Turn → Turn) : (t.perform closed a).owed p = t.owed p := by
  cases a with
  | openConnection =>
    obtain ⟨e, -, hcore, he⟩ := hc.perform_openConnection ha closed
    exact owed_of_effects (n := 0) he (by simp [hcore, Core.held, Effect.promises, Effect.settled])
  | closeConnection => rw [hc.perform_closeConnection ha, owed_request]
  | replayPendingWork =>
    simp only [Marks.act, Option.ite_none_right_eq_some] at ha
    refine owed_replayPending (h.tidy ?_)
    rcases ha.1.1 with hm | hm <;> rw [hm] <;> decide
  | remakeSubscriptions => exact owed_remake t
  | breakConnection => exact owed_breakConnection t
  | cleanup => exact owed_cleanup t
  | succeedPendingStarts | failPendingStarts => exact owed_settleStarts ..
  | succeedPendingStops => exact owed_settleStops t
  | startRetryTimer =>
    rw [Turn.perform, startTimer, owed_request]
    exact (owed_update (n := 0) _ rfl).trans (owed_cancelTimer t)
  | cancelRetryTimer => exact owed_cancelTimer t
  | markEndpointGood =>
    refine owed_of_effects (n := 0) (effects_reportEndpoint t) ?_
    cases he : t.core.endpoint <;> simp [Core.held, Effect.promises, Effect.settled]
  | resumeStart =>
    refine owed_of_effects (n := 0) (effects_resumeStart t) ?_
    split <;> simp [Effect.promises, Signal.promises]
  | discardConnection | resetSession => rfl
  | requestEndpoint | flushCallbacks | notifyStarting | notifyStarted | notifyRestarted
  | notifyRetrying | notifyStopped | releaseCallbacks => exact owed_emit ..

theorem owed_performAll (hc : Control m t.core.course (t.due env))
    (h : Tracking m lost t.core (t.due env)) {actions : List Action}
    (ha : actions.foldlM Marks.act m = some m')
    (hp : .replayPendingWork ∈ actions → t.core.phase = .started) (closed : Turn → Turn) :
    (actions.foldl (perform closed) t).owed p = t.owed p := by
  induction actions generalizing m t with
  | nil => rfl
  | cons a actions ih =>
    obtain ⟨m₁, ha₁, ha⟩ := Option.bind_eq_some_iff.mp ha
    have hstarted : a = .replayPendingWork → t.core.phase = .started := by
      rintro rfl
      exact hp (List.mem_cons_self ..)
    refine (ih (hc.perform ha₁ closed) (h.perform hc ha₁ hstarted closed) ha ?_).trans
      (owed_perform hc h ha₁ closed)
    intro hm
    rw [hc.phase_perform ha₁]
    exact hp (List.mem_cons_of_mem _ hm)

theorem owed_fire (hc : Control m t.core.course (t.due env))
    (h : Tracking m lost t.core (t.due env)) {trigger : Trigger}
    (hm : t.core.phase.marks.spend trigger = some m) : (t.fire trigger).owed p = t.owed p := by
  rcases fire_cases t hm with ⟨he, -, -⟩ | ⟨next, actions, m', hn, ha, -, he⟩
  · rw [he]
  · have hent : Tracking m lost (t.enter next).core ((t.enter next).due env) :=
      h.congr (fun a _ => (silent_enter t next).due env a) rfl rfl rfl rfl rfl rfl rfl
    rw [he, owed_performAll (hc.enter next) hent ha (Phase.next_of_replayPendingWork hn)]
    exact owed_emit ..

section Signals

variable {k : ConnectionId} {topic : Topic} {result : Outcome}

theorem owed_onSubscribed (h : Tracking t.core.phase.marks lost t.core d)
    (hd : ∀ a, d a = t.due env a + [Awaited.reply (.subscribed k topic)].count a) :
    (t.onSubscribed k topic result).owed p = t.owed p := by
  unfold onSubscribed
  split
  · next hcur =>
    have hk : t.core.connection = some k := by simpa [Core.isCurrent] using hcur
    obtain ⟨-, -, row, hf, hst⟩ := h.attaching_of_subscribed hk hd
    have htopic := (Subscriptions.find?_eq_some hf).2
    subst htopic
    rw [hf]
    dsimp only
    split_ifs with hr hstop hrem
    · rfl
    · exact owed_onSubscribedStopping h.sorted hf
    · exact owed_onRemade h.sorted hf
    · have hp := Phase.eq_started_of_attaching (h.admits hf) hstop hst (by simpa using hrem)
      rw [hp] at h
      exact owed_onAttached (h.tidy (by decide)) hf
        (Subscription.Live.attaching (h.admits hf) hst)
  · rfl

theorem owed_onUnsubscribed (h : Tracking t.core.phase.marks lost t.core d)
    (hd : ∀ a, d a = t.due env a + [Awaited.reply (.unsubscribed k topic)].count a) :
    (t.onUnsubscribed k topic result).owed p = t.owed p := by
  unfold onUnsubscribed
  split
  · next hcur =>
    have hk : t.core.connection = some k := by simpa [Core.isCurrent] using hcur
    obtain ⟨-, -, row, hf, hst⟩ := h.detaching_of_unsubscribed hk hd
    have htopic := (Subscriptions.find?_eq_some hf).2
    subst htopic
    split
    · rfl
    · next hstop =>
      rw [Bool.or_eq_true, not_or] at hstop
      rw [hf]
      have hp := Phase.eq_started_of_detaching (h.admits hf) hstop.2 hst
      rw [hp] at h
      exact owed_onDetached (h.tidy (by decide)) hf
        (Subscription.Live.detaching (h.admits hf) hst)
  · rfl

theorem owed_onDelivered (t : Turn) (k : ConnectionId) (message : InboundMessage) :
    (t.onDelivered k message).owed p = t.owed p := by
  unfold onDelivered
  split
  · split
    · rfl
    · dsimp only
      split_ifs
      · exact owed_notify ..
      · exact owed_notify ..
      · exact (owed_notify ..).trans (owed_update (n := 0) t rfl)
  · rfl

theorem owed_acknowledge (t : Turn) (delivery : PendingDelivery) :
    (t.acknowledge delivery).owed p = t.owed p := by
  unfold acknowledge
  split
  · exact owed_request ..
  · rfl

theorem owed_onConfirm (t : Turn) (id : ConfirmationId) (q : PromiseId) :
    (t.onConfirm id q).owed p = t.owed p + [q].count p := by
  unfold onConfirm
  split
  · exact owed_settle ..
  · rw [owed_settle, owed_acknowledge]
    rfl

theorem owed_handle_steady {x : Signal} (hx : x.isSteady)
    (h : Tracking t.core.phase.marks lost t.core d)
    (hd : ∀ a, d a = t.due env a + x.awaited.count a) :
    (t.handle x).owed p = t.owed p + x.promises.count p := by
  cases x with
  | work w =>
    refine owed_onWork (fun hw => h.tidy ?_) w
    revert hw
    cases t.core.phase <;> decide
  | sent k id result => exact owed_onSent h.numbered k id
  | subscribed k topic result => exact owed_onSubscribed h hd
  | unsubscribed k topic result => exact owed_onUnsubscribed h hd
  | delivered k message => exact owed_onDelivered t k message
  | confirm id q => exact owed_onConfirm t id q
  | autoConfirm delivery => exact owed_acknowledge t delivery
  | _ => cases hx

theorem count_held_prepare {x : Signal} (hx : x.isSteady = false) (c : Core) :
    (x.prepare c).held.count p = c.held.count p + x.promises.count p := by
  cases x with
  | start q =>
    simp only [Signal.prepare, Signal.promises, Core.count_held, List.count_append]
    omega
  | stop q =>
    simp only [Signal.prepare, Signal.promises, Core.count_held, List.count_append]
    omega
  | endpointAnswered result =>
    rcases result with e | (e | delay) <;>
      simp [Signal.prepare, Signal.promises, Core.held, Core.recordError_eq]
  | opened k result =>
    cases result <;> simp [Signal.prepare, Signal.promises, Core.held, Core.recordError_eq]
  | disconnected k cause => simp [Signal.prepare, Signal.promises, Core.held, Core.recordError_eq]
  | callbackFailed cause => simp [Signal.prepare, Signal.promises, Core.held, Core.recordError_eq]
  | closed | timerEnded | flushed | subscriptionsRemade => rfl
  | _ => cases hx

end Signals

end Turn

theorem Sound.owed_handle {lost : ConnectionId → Topic → Prop} {c : Core} {d env : Awaited → Nat}
    {x : Signal} {p : PromiseId} (h : Sound lost c d)
    (hd : ∀ a, d a = env a + x.awaited.count a)
    (hown : .lookup ∈ x.awaited → env .resume = 0 ∧ env .remade = 0) :
    (c.handle x).owed p = c.held.count p + x.promises.count p := by
  unfold Core.handle
  by_cases hx : x.isSteady
  · exact Turn.owed_handle_steady (t := Turn.begin c) hx h.tracking hd
  · have hx' : x.isSteady = false := by simpa using hx
    rw [Turn.handle_of_not_isSteady _ hx']
    cases ht : x.trigger? (Turn.begin c).core with
    | none =>
      have hnone : x.promises = [] := by
        cases x with
        | start | stop => cases ht
        | work | confirm => cases hx'
        | _ => rfl
      simp [hnone]
    | some trigger =>
      obtain ⟨m, hm, hc⟩ := h.control.spend hd (fun hl => (hown hl).1) (h.remade_ne_absent hd) ht
      have hspend := h.tracking.spend hd (fun hl => (hown hl).2) ht hm
      have hfire := Turn.owed_fire (t := (Turn.begin c).update x.prepare) (p := p) hc hspend
        (by simpa using hm)
      exact hfire.trans (Turn.owed_update (t := Turn.begin c) (Turn.count_held_prepare hx' c))

end PubSub
