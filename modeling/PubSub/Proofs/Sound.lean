import Mathlib.Data.List.Count
import PubSub.Proofs.Tracking

/-! # Soundness of the phases

Every action that is performed in a transition keeps what the marks tell of the
rows. So what a phase tells of a session is true after every signal if it was
true before.
-/

namespace PubSub

open Turn

namespace Tracking

variable {m m' : Marks} {lost : ConnectionId → Topic → Prop} {env : Awaited → Nat} {t : Turn}

theorem breakConnection (h : Tracking m lost t.core (t.due env)) :
    Tracking { m with
      rows := m.rows.interrupted, remade := m.remade.blur, linked := false, idle := false }
      lost t.breakConnection.core (t.breakConnection.due env) := by
  rw [core_breakConnection]
  refine ⟨h.sorted.map fun _ => rfl, ?_, .nil, by simp, ?_, ?_, by simp, ?_, by simp, ?_⟩
  · rw [eq_comm, List.countP_eq_zero]
    intro row hm
    obtain ⟨r, -, rfl⟩ := List.mem_map.mp hm
    simp [Subscription.interrupt]
  · intro row hm
    obtain ⟨r, hr, rfl⟩ := List.mem_map.mp hm
    exact (h.shape r hr).interrupt
  · intro hl
    cases hm : m.rows <;> simp [hm, RowShape.interrupted] at hl
  · rw [(silent_breakConnection t).due]
    exact h.remade.blur
  · simpa only [(silent_breakConnection t).due] using h.newest

theorem cleanup (h : Tracking m lost t.core (t.due env)) :
    Tracking { m.disconnected with rows := .empty, remade := m.remade.blur, idle := true }
      lost t.cleanup.core (t.cleanup.due env) := by
  rw [core_cleanup]
  refine ⟨.nil, rfl, .nil, by simp, by simp, by simp, fun _ => ⟨rfl, rfl⟩, ?_, ?_, ?_⟩
  · rw [(silent_cleanup t).due]
    exact h.remade.blur
  · intro _ k hk
    cases hk
  · simpa only [(silent_cleanup t).due] using h.newest

theorem connect (h : Tracking m lost t.core (t.due env)) {e : Endpoint}
    (he : t.core.endpoint = some e) (hm : m.rows = .empty ∨ m.rows = .broken) :
    Tracking { m with connected := true, located := false, opens := 1, closes := 0, linked := true }
      lost t.connect.core (t.connect.due env) := by
  obtain ⟨hc, hf⟩ := connect_of_endpoint t he
  have hd (a : Awaited) (ha : a.isOfRow) : t.connect.due env a = t.due env a := by
    rw [due_of_effects env a hf, List.count_eq_zero.mpr, Nat.add_zero]
    intro hs
    obtain rfl := List.mem_singleton.mp hs
    cases ha
  rw [hc]
  have h' : Tracking m lost t.core (t.connect.due env) := h.congr hd rfl rfl rfl rfl rfl rfl rfl
  refine { h' with linked := ?_, newest := ?_ }
  · intro _ k hk topic
    obtain rfl := Option.some.inj hk
    have hz := h'.newest _ (Nat.lt_succ_self _) topic
    refine .of_zero hz.1 hz.2 fun row hrow => ?_
    have hadm := h.admits hrow
    rcases hm with hm | hm <;> rw [hm] at hadm
    · exact hadm.elim
    · exact hadm.remaking
  · intro n hn topic
    exact h'.newest n (Nat.lt_of_succ_lt hn) topic

theorem due_remake (env : Awaited → Nat) {k : ConnectionId} (hk : t.core.connection = some k)
    (a : Awaited) :
    t.remake.due env a = t.due env a +
      (if t.core.subscriptions.remakeParams = [] then [Awaited.remade] else
        (t.core.subscriptions.remakeParams.map (·.topic)).map
          fun topic => .reply (.subscribed k topic)).count a := by
  rw [due_of_effects env a (remake_of_connection t hk).2]
  split
  · rfl
  · rw [List.flatMap_map, List.map_map, List.map_eq_flatMap]
    rfl

theorem remake (h : Tracking m lost t.core (t.due env)) {k : ConnectionId}
    (hk : t.core.connection = some k) (hnew : k.number ≤ t.core.connections) (hl : m.linked)
    (hb : m.rows = .broken) (hr : m.remade = .absent) :
    Tracking { m with rows := .renewing, remade := .exact } lost t.remake.core
      (t.remake.due env) := by
  have hbroken (row : Subscription) (hrow : row ∈ t.core.subscriptions) : row.Broken := by
    have hadm := h.shape row hrow
    rwa [hb] at hadm
  have hparams : t.core.subscriptions.remakeParams = t.core.subscriptions.map (·.params) := by
    rw [Subscriptions.remakeParams, List.filter_eq_self.mpr]
    intro row hrow
    simp [Subscription.isBroken, (hbroken row hrow).state]
  have htopics : t.core.subscriptions.remakeParams.map (·.topic) =
      t.core.subscriptions.map (·.topic) := by
    rw [hparams, List.map_map]
    rfl
  have hd := due_remake (t := t) env hk
  have hinj : Function.Injective fun topic => Awaited.reply (.subscribed k topic) :=
    fun a b hab => by injection hab with hab; injection hab
  have hsub (k' : ConnectionId) (topic : Topic) : t.remake.due env (.reply (.subscribed k' topic)) =
      t.due env (.reply (.subscribed k' topic)) +
        if k' = k then if (t.core.subscriptions.find? topic).isSome then 1 else 0 else 0 := by
    rw [hd, ← h.sorted.count_topic, ← htopics]
    split
    · next hnil => simp [hnil]
    · by_cases hk' : k' = k
      · subst hk'
        rw [if_pos rfl, List.count_map_of_injective _ _ hinj]
      · rw [if_neg hk', List.count_eq_zero.mpr]
        simpa using fun _ _ hkk => absurd hkk.symm hk'
  have hunsub (k' : ConnectionId) (topic : Topic) :
      t.remake.due env (.reply (.unsubscribed k' topic)) =
        t.due env (.reply (.unsubscribed k' topic)) := by
    rw [hd, List.count_eq_zero.mpr, Nat.add_zero]
    split <;> simp
  have hzero (topic : Topic) : t.due env (.reply (.subscribed k topic)) = 0 ∧
      t.due env (.reply (.unsubscribed k topic)) = 0 := by
    have hlink := h.linked hl k hk topic
    have hstate (row : Subscription) (hrow : t.core.subscriptions.find? topic = some row) :=
      (hbroken row (Subscriptions.find?_eq_some hrow).1).state
    exact ⟨hlink.subscribed_eq_zero fun row hrow => by simp [hstate row hrow],
      hlink.unsubscribed_eq_zero fun row hrow => by simp [hstate row hrow]⟩
  rw [(remake_of_connection t hk).1]
  refine ⟨h.sorted.map Subscription.topic_remake, ?_, h.numbered, h.bounded, ?_,
    (fun hl => by cases hl), h.idle, ?_, ?_, ?_⟩
  · have hall : (t.core.subscriptions.map Subscription.remake).countP (·.remaking) =
        (t.core.subscriptions.map Subscription.remake).length := by
      rw [List.countP_eq_length]
      intro row hm
      obtain ⟨r, hr, rfl⟩ := List.mem_map.mp hm
      exact (hbroken r hr).remake.remaking
    simp only [hparams, Subscriptions.remake, hall, List.length_map]
  · intro row hm
    obtain ⟨r, hr, rfl⟩ := List.mem_map.mp hm
    exact .inl (hbroken r hr).remake
  · have hrem := h.remade
    rw [hr] at hrem
    have hrem : t.due env .remade = 0 := hrem
    simp only [Posting.Holds, hd, hrem, List.length_eq_zero_iff]
    split
    · simp
    · rw [List.count_eq_zero.mpr (by simp)]
  · intro _ k' hk' topic
    obtain rfl : k = k' := Option.some.inj (hk.symm.trans hk')
    obtain ⟨hs, hu⟩ := hzero topic
    have hfind : Subscriptions.find? t.core.subscriptions.remake topic =
        (t.core.subscriptions.find? topic).map Subscription.remake :=
      Subscriptions.find?_map Subscription.topic_remake
    rw [hfind]
    cases hf : t.core.subscriptions.find? topic with
    | none => exact .of_none (by rw [hsub, hs, hf]; simp) (by rw [hunsub, hu])
    | some row =>
      have hrow := (hbroken row (Subscriptions.find?_eq_some hf).1).remake
      have hone : t.remake.due env (.reply (.subscribed k topic)) = 1 := by
        rw [hsub, hs, hf]
        simp
      refine ⟨?_, by rw [hunsub, hu]; exact Nat.zero_le _, fun _ _ _ => .inl hone⟩
      simp [hone, hrow.state]
  · intro n hn topic
    have hne : (⟨n⟩ : ConnectionId) ≠ k := by
      rintro rfl
      exact absurd hn (Nat.not_lt.mpr hnew)
    rw [hsub, hunsub, if_neg hne]
    exact h.newest n hn topic

theorem replayPending (hc : Control Marks.accepting t.core.course (t.due env))
    (h : Tracking m lost t.core (t.due env)) (hp : t.core.phase = .started)
    (hm : m.rows = .empty ∨ m.rows = .settled) (ha : { m with rows := .live } = Marks.accepting) :
    Tracking Marks.accepting lost t.replayPending.core (t.replayPending.due env) := by
  have hadm (row : Subscription) (hrow : row ∈ t.core.subscriptions) : row.Live := by
    have hadm := h.shape row hrow
    rcases hm with hm | hm <;> rw [hm] at hadm
    · exact hadm.elim
    · exact .inl hadm
  have h' : Tracking Marks.accepting lost { t.core with pendingWork := [] } (t.due env) := by
    have hrem : m.remade = .absent := congrArg Marks.remade ha
    have hlinked : m.linked = true := congrArg Marks.linked ha
    exact { h with
      shape := hadm
      work := fun _ => rfl
      idle := fun hi => by cases hi
      remade := by have := h.remade; rwa [hrem] at this
      linked := fun _ => h.linked hlinked }
  have hs : t.Stays (t.update fun c => { c with pendingWork := [] }) :=
    (Frame.refl courseView t).update rfl
  exact replay_after hc hp h' hs rfl (fun _ => rfl) t.core.pendingWork

theorem settleStarts (h : Tracking m lost t.core (t.due env)) (result : Outcome) :
    Tracking m lost (t.settleStarts result).core ((t.settleStarts result).due env) := by
  rw [core_settleStarts]
  exact h.congr (fun a _ => (silent_settleStarts t result).due env a) rfl rfl rfl rfl rfl rfl rfl

theorem perform (hc : Control m t.core.course (t.due env))
    (h : Tracking m lost t.core (t.due env)) {a : Action} (ha : m.act a = some m')
    (hp : a = .replayPendingWork → t.core.phase = .started) (closed : Turn → Turn) :
    Tracking m' lost (t.perform closed a).core ((t.perform closed a).due env) := by
  cases a with
  | requestEndpoint =>
    obtain rfl := Option.some.inj ha
    have h' : Tracking m lost t.core _ :=
      h.emit (e := .request .lookup) (by simp [Effect.awaited, Awaited.isOfRow])
    exact { h' with }
  | flushCallbacks =>
    obtain rfl := Option.some.inj ha
    have h' : Tracking m lost t.core _ :=
      h.emit (e := .flush) (by simp [Effect.awaited, Awaited.isOfRow])
    exact { h' with }
  | openConnection =>
    obtain ⟨e, he, -⟩ := hc.perform_openConnection ha closed
    simp only [Marks.act, Option.ite_none_right_eq_some, Option.some.injEq] at ha
    obtain ⟨⟨-, hm⟩, rfl⟩ := ha
    exact h.connect he hm
  | closeConnection =>
    rw [hc.perform_closeConnection ha]
    simp only [Marks.act, Option.ite_none_right_eq_some, Option.some.injEq] at ha
    obtain ⟨-, rfl⟩ := ha
    have h' : Tracking m lost t.core _ :=
      h.emit (e := .request (.disconnect ⟨t.core.connections⟩))
        (by simp [Effect.awaited, Request.reply?, Awaited.isOfRow])
    exact { h' with }
  | remakeSubscriptions =>
    simp only [Marks.act, Option.ite_none_right_eq_some, Option.some.injEq] at ha
    obtain ⟨⟨hm, hl, hb, hr⟩, rfl⟩ := ha
    exact h.remake (hc.connection_of_connected hm) le_rfl hl hb hr
  | breakConnection =>
    obtain rfl := Option.some.inj ha
    exact h.breakConnection
  | replayPendingWork =>
    simp only [Marks.act, Option.ite_none_right_eq_some, Option.some.injEq] at ha
    obtain ⟨⟨hm, hacc⟩, rfl⟩ := ha
    exact replayPending (by rw [← hacc]; exact { hc with }) h (hp rfl) hm hacc
  | discardConnection =>
    obtain rfl := Option.some.inj ha
    exact { h with linked := fun _ k hk => by cases hk }
  | cleanup =>
    obtain rfl := Option.some.inj ha
    exact h.cleanup
  | succeedPendingStarts =>
    obtain rfl := Option.some.inj ha
    exact { h.settleStarts (.ok ()) with }
  | failPendingStarts =>
    obtain rfl := Option.some.inj ha
    exact { h.settleStarts (.error (t.core.lastError.getD .clientStopped)) with }
  | succeedPendingStops =>
    obtain rfl := Option.some.inj ha
    simp only [Turn.perform, core_settleStops]
    have h' : Tracking m lost t.core _ :=
      h.congr (fun a _ => (silent_settleStops t).due env a) rfl rfl rfl rfl rfl rfl rfl
    exact { h' with }
  | resumeStart =>
    simp only [Marks.act, Option.ite_none_right_eq_some, Option.some.injEq] at ha
    obtain ⟨-, rfl⟩ := ha
    simp only [Turn.perform, core_resumeStart]
    have h' : Tracking m lost t.core (t.resumeStart.due env) := by
      refine h.congr (fun a hof => ?_) rfl rfl rfl rfl rfl rfl rfl
      rw [due_resumeStart, List.count_eq_zero.mpr, ite_self, Nat.add_zero]
      intro hs
      obtain rfl := List.mem_singleton.mp hs
      cases hof
    exact { h' with }
  | startRetryTimer =>
    obtain rfl := Option.some.inj ha
    simp only [Turn.perform, core_startTimer]
    refine h.congr (fun a hof => ?_) rfl rfl rfl rfl rfl rfl rfl
    rw [due_startTimer, List.count_eq_zero.mpr, Nat.add_zero]
    intro hs
    obtain rfl := List.mem_singleton.mp hs
    cases hof
  | cancelRetryTimer =>
    obtain rfl := Option.some.inj ha
    simp only [Turn.perform, core_cancelTimer]
    exact h.congr (fun a _ => (silent_cancelTimer t).due env a) rfl rfl rfl rfl rfl rfl rfl
  | markEndpointGood =>
    obtain rfl := Option.some.inj ha
    simp only [Turn.perform, core_reportEndpoint]
    exact h.congr (fun a _ => (silent_reportEndpoint t).due env a) rfl rfl rfl rfl rfl rfl rfl
  | resetSession =>
    obtain rfl := Option.some.inj ha
    exact h.congr (fun _ _ => rfl) rfl rfl rfl rfl rfl rfl rfl
  | notifyStarting | notifyStarted | notifyRestarted | notifyRetrying | notifyStopped
  | releaseCallbacks =>
    obtain rfl := Option.some.inj ha
    exact h.congr (fun a _ => due_emit ..) rfl rfl rfl rfl rfl rfl rfl

theorem performAll (hc : Control m t.core.course (t.due env))
    (h : Tracking m lost t.core (t.due env)) {actions : List Action}
    (ha : actions.foldlM Marks.act m = some m')
    (hp : .replayPendingWork ∈ actions → t.core.phase = .started) (closed : Turn → Turn) :
    Tracking m' lost (actions.foldl (Turn.perform closed) t).core
      ((actions.foldl (Turn.perform closed) t).due env) := by
  induction actions generalizing m t with
  | nil => obtain rfl := Option.some.inj ha; exact h
  | cons a actions ih =>
    obtain ⟨m₁, ha₁, ha⟩ := Option.bind_eq_some_iff.mp ha
    refine ih (hc.perform ha₁ closed) (h.perform hc ha₁ ?_ closed) ha ?_
    · rintro rfl
      exact hp (List.mem_cons_self ..)
    · intro hm
      rw [hc.phase_perform ha₁]
      exact hp (List.mem_cons_of_mem _ hm)

variable {c : Core} {x : Signal} {d : Awaited → Nat}

theorem recordError (h : Tracking m lost c env) (cause : ClientError) :
    Tracking m lost (c.recordError cause) env := by
  rw [Core.recordError_eq]
  exact { h with }

theorem unaffected (h : Tracking m lost c d) (hd : ∀ a, d a = env a + x.awaited.count a)
    (hx : ∀ a ∈ x.awaited, a.isOfRow = false) : Tracking m lost c env := by
  refine h.congr (fun a ha => ?_) rfl rfl rfl rfl rfl rfl rfl
  have hz : x.awaited.count a = 0 := List.count_eq_zero.mpr fun hm => by simp [hx a hm] at ha
  rw [hd, hz, Nat.add_zero]

theorem answered (h : Tracking m lost c d) (hz : d .remade = 0) (hm : m.answered = some m') :
    Tracking m' lost c d := by
  simp only [Marks.answered, Option.ite_none_left_eq_some, Option.some.injEq] at hm
  obtain ⟨-, rfl⟩ := hm
  exact { h with remade := hz }

theorem opened (h : Tracking m lost c d) (hm : m.opened = some m') : Tracking m' lost c d := by
  simp only [Marks.opened, Option.ite_none_right_eq_some, Option.some.injEq] at hm
  obtain ⟨-, rfl⟩ := hm
  exact { h with }

theorem disconnected (h : Tracking m lost c d) :
    Tracking m.disconnected lost { c with connection := none } d :=
  { h with linked := fun _ k hk => by cases hk }

/-- When the client is told that every row is renewed, none is being renewed. -/
theorem remade_spent (h : Tracking m lost c d)
    (hd : ∀ a, d a = env a + [Awaited.remade].count a)
    (hm : m.spend .subscriptionsRemade = some m') : Tracking m' lost c env := by
  have hsame (a : Awaited) (ha : a ≠ .remade) : env a = d a := by
    rw [hd, List.count_eq_zero.mpr (by simpa using ha), Nat.add_zero]
  have hone : d .remade = env .remade + 1 := by simp [hd]
  have h' : Tracking { m with remade := .any } lost c env :=
    { h with
      remade := trivial
      linked := fun hl k hk topic =>
        (h.linked hl k hk topic).congr (hsame _ (by simp)) (hsame _ (by simp))
      newest := fun n hn topic => by
        rw [hsame _ (by simp), hsame _ (by simp)]
        exact h.newest n hn topic }
  have hrem := h.remade
  cases hr : m.remade with
  | absent => simp [Marks.spend, hr] at hm
  | any =>
    simp only [Marks.spend, hr, Option.some.injEq] at hm
    obtain rfl := hm
    exact { h' with remade := by rw [hr]; trivial }
  | exact =>
    simp only [Marks.spend, hr, Option.some.injEq] at hm
    obtain rfl := hm
    have hrem : d .remade = if c.remakesOutstanding = 0 then 1 else 0 := by rwa [hr] at hrem
    have hn : c.remakesOutstanding = 0 := by
      by_contra hn
      rw [if_neg hn] at hrem
      omega
    rw [if_pos hn] at hrem
    have hnone : ∀ row ∈ c.subscriptions, ¬ row.remaking := by
      rw [← List.countP_eq_zero, ← h.renewals, hn]
    refine { h' with shape := ?_, work := ?_, remade := ?_ }
    · intro row hrow
      exact (h.shape row hrow).renewed (by simpa using hnone row hrow)
    · intro hl
      refine h.work ?_
      cases hs : m.rows <;> simp_all [RowShape.renewed]
    · simp only [Posting.Holds]
      omega

theorem spend (h : Tracking m lost c d) (hd : ∀ a, d a = env a + x.awaited.count a)
    (hown : .lookup ∈ x.awaited → env .remade = 0) {trigger : Trigger}
    (ht : x.trigger? c = some trigger) (hm : m.spend trigger = some m') :
    Tracking m' lost (x.prepare c) env := by
  cases Signal.trigger?_eq_some_iff.mp ht with
  | start p =>
    obtain rfl := Option.some.inj hm
    have h' : Tracking m lost c env :=
      h.unaffected hd (by cases p <;> simp [Signal.awaited, Awaited.isOfRow])
    exact { h' with }
  | stop p =>
    obtain rfl := Option.some.inj hm
    have h' : Tracking m lost c env := h.unaffected hd (by simp [Signal.awaited])
    exact { h' with }
  | callbackFailed cause =>
    obtain rfl := Option.some.inj hm
    have h' : Tracking m lost c env := h.unaffected hd (by simp [Signal.awaited])
    exact { h'.recordError cause with }
  | endpointFound endpoint =>
    have h' : Tracking m lost c env := h.unaffected hd (by simp [Signal.awaited, Awaited.isOfRow])
    obtain ⟨m₁, hm₁, rfl⟩ := Option.map_eq_some_iff.mp hm
    exact { h'.answered (hown (List.mem_singleton_self _)) hm₁ with }
  | endpointRetry delay =>
    have h' : Tracking m lost c env := h.unaffected hd (by simp [Signal.awaited, Awaited.isOfRow])
    exact { h'.answered (hown (List.mem_singleton_self _)) hm with }
  | endpointFatal cause =>
    have h' : Tracking m lost c env := h.unaffected hd (by simp [Signal.awaited, Awaited.isOfRow])
    exact (h'.answered (hown (List.mem_singleton_self _)) hm).recordError cause
  | openSucceeded k =>
    have h' : Tracking m lost c env := h.unaffected hd (by simp [Signal.awaited, Awaited.isOfRow])
    exact h'.opened hm
  | openRetryable k cause | openFatal k cause =>
    have h' : Tracking m lost c env := h.unaffected hd (by simp [Signal.awaited, Awaited.isOfRow])
    obtain ⟨m₁, hm₁, rfl⟩ := Option.map_eq_some_iff.mp hm
    exact (h'.opened hm₁).disconnected.recordError cause
  | connectionClosed k =>
    have h' : Tracking m lost c env := h.unaffected hd (by simp [Signal.awaited, Awaited.isOfRow])
    simp only [Marks.spend, Option.ite_none_right_eq_some, Option.some.injEq] at hm
    obtain ⟨-, rfl⟩ := hm
    exact h'.disconnected
  | timerPopped timer | timerCancelled timer =>
    have h' : Tracking m lost c env := h.unaffected hd (by simp [Signal.awaited, Awaited.isOfRow])
    obtain rfl := Option.some.inj hm
    exact { h' with }
  | networkError k cause | replaced k cause =>
    have h' : Tracking m lost c env := h.unaffected hd (by simp [Signal.awaited])
    simp only [Marks.spend, Option.ite_none_right_eq_some, Option.some.injEq] at hm
    obtain ⟨-, rfl⟩ := hm
    exact h'.recordError cause
  | callbacksFlushed =>
    have h' : Tracking m lost c env := h.unaffected hd (by simp [Signal.awaited, Awaited.isOfRow])
    simp only [Marks.spend, Option.ite_none_left_eq_some, Option.some.injEq] at hm
    obtain ⟨-, rfl⟩ := hm
    exact { h' with }
  | subscriptionsRemade => exact h.remade_spent hd hm

end Tracking

theorem Signal.steers_of_isSteady {x : Signal} (hx : x.isSteady) :
    ∀ a ∈ x.awaited, a.steers = false := by
  cases x with
  | work | sent | subscribed | unsubscribed | delivered | confirm | autoConfirm =>
    simp [awaited, Awaited.steers]
  | _ => cases hx

theorem Signal.isOfRow_of_not_isSteady {x : Signal} (hx : x.isSteady = false)
    (hr : x ≠ .subscriptionsRemade) : ∀ a ∈ x.awaited, a.isOfRow = false := by
  cases x with
  | start p => cases p <;> simp [awaited, Awaited.isOfRow]
  | subscriptionsRemade => exact absurd rfl hr
  | work | sent | subscribed | unsubscribed | delivered | confirm | autoConfirm => cases hx
  | _ => simp [awaited, Awaited.isOfRow]

structure Sound (lost : ConnectionId → Topic → Prop) (c : Core) (due : Awaited → Nat) : Prop where
  control : Control c.phase.marks c.course due
  tracking : Tracking c.phase.marks lost c due

namespace Sound

variable {m : Marks} {lost : ConnectionId → Topic → Prop} {d env : Awaited → Nat} {c : Core}
  {x : Signal} {t : Turn}

theorem new : Sound lost {} fun _ => 0 where
  control := ⟨rfl, by simp [Phase.marks], rfl, rfl, by simp [Phase.marks, Phase.isConnected],
    by simp [Phase.marks, Phase.isConnected], by simp, rfl, fun _ => rfl⟩
  tracking := ⟨.nil, rfl, .nil, by simp, by simp, fun _ => rfl, fun _ => ⟨rfl, rfl⟩, trivial,
    (fun _ k hk => by cases hk), fun _ _ _ => ⟨rfl, rfl⟩⟩

theorem fire (hc : Control m t.core.course (t.due env)) (h : Tracking m lost t.core (t.due env))
    {trigger : Trigger} (hm : t.core.phase.marks.spend trigger = some m) :
    Sound lost (t.fire trigger).core ((t.fire trigger).due env) := by
  refine ⟨hc.fire hm, ?_⟩
  rcases fire_cases t hm with ⟨he, -, hle⟩ | ⟨next, actions, m', hn, ha, hle, he⟩
  · rw [he]
    exact h.mono hle
  · have h' : Tracking m lost (t.enter next).core ((t.enter next).due env) :=
      h.congr (fun a _ => (silent_enter t next).due env a) rfl rfl rfl rfl rfl rfl rfl
    rw [he, ((hc.enter next).performAll ha fireClosed).2]
    exact (h'.performAll (hc.enter next) ha (Phase.next_of_replayPendingWork hn) _).mono hle

theorem mono {lost' : ConnectionId → Topic → Prop} (h : Sound lost c d)
    (hl : ∀ k topic, lost k topic → lost' k topic) : Sound lost' c d where
  control := h.control
  tracking := { h.tracking with
    linked := fun hm k hk topic =>
      { h.tracking.linked hm k hk topic with
        renewed := fun row hrow hr =>
          ((h.tracking.linked hm k hk topic).renewed row hrow hr).imp id (hl k topic) } }

/-- The signal that every row is renewed comes only where it can. -/
theorem remade_ne_absent (h : Sound lost c d) (hd : ∀ a, d a = env a + x.awaited.count a) :
    x = .subscriptionsRemade → c.phase.marks.remade ≠ .absent := by
  rintro rfl habs
  have hrem := h.tracking.remade
  rw [habs] at hrem
  have hone := hd .remade
  simp only [Posting.Holds] at hrem
  simp [hrem, Signal.awaited] at hone

/-- Every signal is handled so that what the phase tells stays true. -/
theorem handle (h : Sound lost c d) (hd : ∀ a, d a = env a + x.awaited.count a)
    (hown : .lookup ∈ x.awaited → env .resume = 0 ∧ env .remade = 0)
    (hlost : ∀ k topic result, x = .subscribed k topic result → Outcome.isRetryable result →
      lost k topic) : Sound lost (c.handle x).core ((c.handle x).due env) := by
  unfold Core.handle
  by_cases hx : x.isSteady
  · have hc : Control c.phase.marks (begin c).core.course ((begin c).due env) :=
      h.control.unaffected hd (Signal.steers_of_isSteady hx)
    have hs := stays_handle (begin c) hx
    have hp : ((begin c).handle x).core.phase = c.phase := congrArg Course.phase hs.course
    constructor
    · rw [hp]
      exact hc.stays hs
    · rw [hp]
      exact Tracking.handle_steady (t := begin c) hx hc h.tracking hd hlost
  · rw [handle_of_not_isSteady _ (by simpa using hx)]
    cases ht : x.trigger? (begin c).core with
    | none =>
      have hx' : x.isSteady = false := by simpa using hx
      have hrem : x ≠ .subscriptionsRemade := by
        rintro rfl
        cases ht
      exact ⟨h.control.late hd hx' ht,
        h.tracking.unaffected hd (Signal.isOfRow_of_not_isSteady hx' hrem)⟩
    | some trigger =>
      obtain ⟨m, hm, hc⟩ :=
        h.control.spend hd (fun hl => (hown hl).1) (h.remade_ne_absent hd) ht
      exact fire (t := (begin c).update x.prepare) hc
        (h.tracking.spend hd (fun hl => (hown hl).2) ht hm) (by simpa using hm)

theorem phase_handle (h : Sound lost c d) (hd : ∀ a, d a = env a + x.awaited.count a)
    (hown : .lookup ∈ x.awaited → env .resume = 0) :
    (c.handle x).core.phase = ((x.trigger? c).bind fun trigger =>
      (c.phase.transition trigger).map (·.next)).getD c.phase := by
  unfold Core.handle
  by_cases hx : x.isSteady
  · rw [Signal.trigger?_of_isSteady hx]
    exact congrArg Course.phase (stays_handle (begin c) hx).course
  · rw [handle_of_not_isSteady _ (by simpa using hx), core_begin]
    cases ht : x.trigger? c with
    | none => rfl
    | some trigger =>
      obtain ⟨m, hm, hc⟩ := h.control.spend hd hown (h.remade_ne_absent hd) ht
      have hphase := hc.phase_fire (t := (begin c).update x.prepare) (by simpa using hm)
      rwa [core_update, Signal.phase_prepare] at hphase

end Sound

end PubSub
