import PubSub.Proofs.Course
import PubSub.Proofs.Marks

/-! # Control

What the marks of its phase tell is true of a session: of the connection, of
the endpoint, and of the answers and signals under way that can steer it. Every
action keeps this, and with the table of the transitions every signal does.
-/

namespace PubSub

def Awaited.steers : Awaited → Bool
  | lookup | flush | resume | reply (.opened _) | reply (.closed _) => true
  | _ => false

theorem Awaited.isTracked_of_steers {a : Awaited} (h : a.steers) : a.isTracked = false := by
  unfold steers at h
  split at h <;> first | rfl | cases h

/-- What marks tell of the course of a session and of what is under way to steer it. -/
structure Control (m : Marks) (c : Course) (due : Awaited → Nat) : Prop where
  connection : c.connection = if m.connected then some ⟨c.connections⟩ else none
  endpoint : m.located → c.endpoint.isSome
  lookup : due .lookup = m.lookups
  flush : due .flush = m.flushes
  opened : m.connected → due (.reply (.opened ⟨c.connections⟩)) = m.opens
  closed : m.connected → due (.reply (.closed ⟨c.connections⟩)) = m.closes
  newest : ∀ n, c.connections < n →
    due (.reply (.opened ⟨n⟩)) = 0 ∧ due (.reply (.closed ⟨n⟩)) = 0
  resume : m.resume.Holds (c.pendingStarts ≠ []) (due .resume)
  stops : m.stops = false → c.pendingStops = []

namespace Turn

/-- A trigger that can fire is passed over, or its actions are all performed. -/
theorem fire_cases (t : Turn) {trigger : Trigger} {m : Marks}
    (h : t.core.phase.marks.spend trigger = some m) :
    t.fire trigger = t ∧ t.core.phase.transition trigger = none ∧ m.le t.core.phase.marks ∨
      ∃ next actions m', t.core.phase.transition trigger = some ⟨next, actions⟩ ∧
        actions.foldlM Marks.act m = some m' ∧ m'.le next.marks ∧
        t.fire trigger = actions.foldl (perform fireClosed) (t.enter next) := by
  have ht := Phase.tells_transition t.core.phase trigger
  simp only [Phase.tells, h] at ht
  cases hp : t.core.phase.transition trigger with
  | none =>
    simp only [hp] at ht
    exact .inl ⟨by simp only [fire, fireWith, hp], rfl, ht⟩
  | some next =>
    obtain ⟨next, actions⟩ := next
    simp only [hp] at ht
    cases ha : actions.foldlM Marks.act m with
    | none => simp [ha] at ht
    | some m' =>
      simp only [ha, Option.any_some] at ht
      exact .inr ⟨next, actions, m', rfl, ha, ht, by simp only [fire, fireWith, hp]; rfl⟩

end Turn

namespace Control

open Turn

variable {m m' : Marks} {c : Course} {due due' env : Awaited → Nat} {t t' : Turn}

theorem congr {c' : Course} (h : Control m c due)
    (hd : ∀ a, a.steers → due' a = due a)
    (hk : c'.connection = c.connection) (hn : c'.connections = c.connections)
    (he : c'.endpoint = c.endpoint) (hs : c'.pendingStarts = c.pendingStarts)
    (hp : c'.pendingStops = c.pendingStops) : Control m c' due' where
  connection := by rw [hk, hn]; exact h.connection
  endpoint := by rw [he]; exact h.endpoint
  lookup := by rw [hd _ rfl]; exact h.lookup
  flush := by rw [hd _ rfl]; exact h.flush
  opened := fun hc => by rw [hd _ rfl, hn]; exact h.opened hc
  closed := fun hc => by rw [hd _ rfl, hn]; exact h.closed hc
  newest := fun n hlt => by rw [hd _ rfl, hd _ rfl]; exact h.newest n (hn ▸ hlt)
  resume := by simp only [hd .resume rfl, hs]; exact h.resume
  stops := by rw [hp]; exact h.stops

theorem mono (h : Control m c due) (hle : m.le m') : Control m' c due := by
  simp only [Marks.le, Bool.and_eq_true, Bool.or_eq_true, decide_eq_true_eq, Bool.not_eq_true']
    at hle
  obtain ⟨⟨⟨⟨⟨⟨⟨⟨⟨⟨⟨hc, hl⟩, hlk⟩, ho⟩, hcl⟩, hf⟩, hr⟩, -⟩, hs⟩, -⟩, -⟩, -⟩ := hle
  refine ⟨?connection, ?endpoint, ?lookup, ?flush, ?opened, ?closed, h.newest, h.resume.mono hr,
    ?stops⟩
  case connection => rw [← hc]; exact h.connection
  case endpoint => intro hm; exact h.endpoint (hl.resolve_right (by simp [hm]))
  case lookup => rw [← hlk]; exact h.lookup
  case flush => rw [← hf]; exact h.flush
  case opened => rw [← hc, ← ho]; exact h.opened
  case closed => rw [← hc, ← hcl]; exact h.closed
  case stops => intro hm; exact h.stops (hs.resolve_left (by simp [hm]))

theorem stays (h : Control m t.core.course (t.due env)) (hs : t.Stays t') :
    Control m t'.core.course (t'.due env) := by
  rw [hs.course]
  exact h.congr (fun a ha => hs.due env (Awaited.isTracked_of_steers ha)) rfl rfl rfl rfl rfl

theorem silent (h : Control m t.core.course (t.due env)) (hs : t.Silent t') :
    Control m t.core.course (t'.due env) :=
  h.congr (fun a _ => hs.due env a) rfl rfl rfl rfl rfl

theorem connection_of_connected (h : Control m t.core.course due) (hm : m.connected) :
    t.core.connection = some ⟨t.core.connections⟩ := by
  have := h.connection
  rwa [hm, if_pos rfl] at this

theorem perform_openConnection (h : Control m t.core.course due)
    (ha : m.act .openConnection = some m') (closed : Turn → Turn) :
    ∃ e, t.core.endpoint = some e ∧
      (t.perform closed .openConnection).core = { t.core with
        connections := t.core.connections + 1
        connection := some ⟨t.core.connections + 1⟩ } ∧
      (t.perform closed .openConnection).effects =
        t.effects ++ [.request (.connect ⟨t.core.connections + 1⟩ e)] := by
  simp only [Marks.act, Option.ite_none_right_eq_some] at ha
  obtain ⟨e, he⟩ := Option.isSome_iff_exists.mp (h.endpoint ha.1.1)
  exact ⟨e, he, connect_of_endpoint t he⟩

theorem perform_closeConnection (h : Control m t.core.course due)
    (ha : m.act .closeConnection = some m') (closed : Turn → Turn) :
    t.perform closed .closeConnection = t.request (.disconnect ⟨t.core.connections⟩) := by
  simp only [Marks.act, Option.ite_none_right_eq_some] at ha
  simp only [Turn.perform, disconnect, h.connection_of_connected ha.1]

theorem course_perform (h : Control m t.core.course due) {a : Action} (ha : m.act a = some m')
    (closed : Turn → Turn) : (t.perform closed a).core.course = t.core.course.act a := by
  cases a with
  | openConnection =>
    obtain ⟨e, -, hcore, -⟩ := h.perform_openConnection ha closed
    rw [hcore]
    rfl
  | closeConnection =>
    rw [h.perform_closeConnection ha]
    rfl
  | remakeSubscriptions => exact (stays_remake t).course
  | breakConnection => exact (stays_breakConnection t).course
  | replayPendingWork => exact (stays_replayPending t).course
  | _ => simp [Turn.perform, core_cleanup, Core.course, Course.act]

theorem phase_perform (h : Control m t.core.course due) {a : Action} (ha : m.act a = some m')
    (closed : Turn → Turn) : (t.perform closed a).core.phase = t.core.phase :=
  (congrArg Course.phase (h.course_perform ha closed)).trans (Course.phase_act ..)

theorem lookup_asked (h : Control m c due)
    (hd : ∀ a, due' a = due a + [Awaited.lookup].count a) :
    Control { m with lookups := m.lookups + 1 } c due' where
  connection := h.connection
  endpoint := h.endpoint
  lookup := by simp [hd, h.lookup]
  flush := by simp [hd, h.flush]
  opened := by simpa [hd] using h.opened
  closed := by simpa [hd] using h.closed
  newest := by simpa [hd] using h.newest
  resume := by simpa [hd] using h.resume
  stops := h.stops

theorem flush_asked (h : Control m c due)
    (hd : ∀ a, due' a = due a + [Awaited.flush].count a) :
    Control { m with flushes := m.flushes + 1 } c due' where
  connection := h.connection
  endpoint := h.endpoint
  lookup := by simp [hd, h.lookup]
  flush := by simp [hd, h.flush]
  opened := by simpa [hd] using h.opened
  closed := by simpa [hd] using h.closed
  newest := by simpa [hd] using h.newest
  resume := by simpa [hd] using h.resume
  stops := h.stops

theorem close_asked (h : Control m c due)
    (hd : ∀ a, due' a = due a + [Awaited.reply (.closed ⟨c.connections⟩)].count a) :
    Control { m with closes := m.closes + 1 } c due' where
  connection := h.connection
  endpoint := h.endpoint
  lookup := by simp [hd, h.lookup]
  flush := by simp [hd, h.flush]
  opened := by simpa [hd] using h.opened
  closed := by simpa [hd] using h.closed
  newest := fun n hn => by simpa [hd, List.count_singleton, Nat.ne_of_lt hn] using h.newest n hn
  resume := by simpa [hd] using h.resume
  stops := h.stops

theorem open_asked (h : Control m c due)
    (hd : ∀ a, due' a = due a + [Awaited.reply (.opened ⟨c.connections + 1⟩)].count a) :
    Control { m with connected := true, located := false, opens := 1, closes := 0, linked := true }
      { c with connections := c.connections + 1, connection := some ⟨c.connections + 1⟩ }
      due' where
  connection := rfl
  endpoint := nofun
  lookup := by simp [hd, h.lookup]
  flush := by simp [hd, h.flush]
  opened := fun _ => by simp [hd, (h.newest (c.connections + 1) (Nat.lt_succ_self _)).1]
  closed := fun _ => by simp [hd, (h.newest (c.connections + 1) (Nat.lt_succ_self _)).2]
  newest := fun n hn => by
    simpa [hd, List.count_singleton, Nat.ne_of_lt hn] using h.newest n (Nat.lt_of_succ_lt hn)
  resume := by simpa [hd] using h.resume
  stops := h.stops

theorem resume_asked (h : Control m c due) (hz : due .resume = 0)
    (hd : ∀ a, due' a = due a + if c.pendingStarts = [] then 0 else [Awaited.resume].count a) :
    Control { m with resume := .exact } c due' where
  connection := h.connection
  endpoint := h.endpoint
  lookup := by simp [hd, h.lookup]
  flush := by simp [hd, h.flush]
  opened := by simpa [hd] using h.opened
  closed := by simpa [hd] using h.closed
  newest := by simpa [hd] using h.newest
  resume := by by_cases hs : c.pendingStarts = [] <;> simp [Posting.Holds, hd, hz, hs]
  stops := h.stops

theorem starts_settled (h : Control m c due) :
    Control { m with resume := m.resume.blur } { c with pendingStarts := [] } due where
  connection := h.connection
  endpoint := h.endpoint
  lookup := h.lookup
  flush := h.flush
  opened := h.opened
  closed := h.closed
  newest := h.newest
  resume := h.resume.blur
  stops := h.stops

theorem perform (h : Control m t.core.course (t.due env)) {a : Action} (ha : m.act a = some m')
    (closed : Turn → Turn) :
    Control m' (t.perform closed a).core.course ((t.perform closed a).due env) := by
  cases a with
  | requestEndpoint =>
    obtain rfl := Option.some.inj ha
    exact h.lookup_asked fun a => due_emit ..
  | openConnection =>
    obtain ⟨e, -, hcore, heffects⟩ := h.perform_openConnection ha closed
    simp only [Marks.act, Option.ite_none_right_eq_some, Option.some.injEq] at ha
    obtain ⟨-, rfl⟩ := ha
    rw [hcore]
    exact h.open_asked fun a => due_of_effects env a heffects
  | closeConnection =>
    rw [h.perform_closeConnection ha]
    simp only [Marks.act, Option.ite_none_right_eq_some, Option.some.injEq] at ha
    obtain ⟨-, rfl⟩ := ha
    exact h.close_asked fun a => due_emit ..
  | flushCallbacks =>
    obtain rfl := Option.some.inj ha
    exact h.flush_asked fun a => due_emit ..
  | remakeSubscriptions =>
    simp only [Marks.act, Option.ite_none_right_eq_some, Option.some.injEq] at ha
    obtain ⟨-, rfl⟩ := ha
    have h' : Control m _ _ := h.stays (stays_remake t)
    exact { h' with }
  | breakConnection =>
    obtain rfl := Option.some.inj ha
    have h' : Control m _ _ := h.stays (stays_breakConnection t)
    exact { h' with }
  | replayPendingWork =>
    simp only [Marks.act, Option.ite_none_right_eq_some, Option.some.injEq] at ha
    obtain ⟨⟨-, hm⟩, rfl⟩ := ha
    have h' : Control m _ _ := h.stays (stays_replayPending t)
    rw [← hm]
    exact { h' with }
  | discardConnection =>
    obtain rfl := Option.some.inj ha
    exact { h with connection := rfl, opened := nofun, closed := nofun }
  | cleanup =>
    obtain rfl := Option.some.inj ha
    have h' := h.silent (silent_cleanup t)
    simp only [Turn.perform, core_cleanup]
    exact { h' with connection := rfl, opened := nofun, closed := nofun }
  | succeedPendingStarts | failPendingStarts =>
    obtain rfl := Option.some.inj ha
    simp only [Turn.perform, core_settleStarts]
    exact (h.silent (silent_settleStarts t _)).starts_settled
  | succeedPendingStops =>
    obtain rfl := Option.some.inj ha
    have h' := h.silent (silent_settleStops t)
    simp only [Turn.perform, core_settleStops]
    exact { h' with stops := fun _ => rfl }
  | resumeStart =>
    simp only [Marks.act, Option.ite_none_right_eq_some, Option.some.injEq] at ha
    obtain ⟨hr, rfl⟩ := ha
    have hz : t.due env .resume = 0 := by have := h.resume; rwa [hr] at this
    simp only [Turn.perform, core_resumeStart]
    exact h.resume_asked hz fun a => due_resumeStart ..
  | startRetryTimer =>
    obtain rfl := Option.some.inj ha
    simp only [Turn.perform, core_startTimer]
    refine h.congr ?_ rfl rfl rfl rfl rfl
    intro a hs
    rw [due_startTimer, List.count_eq_zero.mpr, Nat.add_zero]
    rintro hm
    obtain rfl := List.mem_singleton.mp hm
    cases hs
  | cancelRetryTimer =>
    obtain rfl := Option.some.inj ha
    simp only [Turn.perform, core_cancelTimer]
    exact h.silent (silent_cancelTimer t)
  | markEndpointGood =>
    obtain rfl := Option.some.inj ha
    simp only [Turn.perform, core_reportEndpoint]
    exact h.congr (fun a _ => (silent_reportEndpoint t).due env a) rfl rfl rfl rfl rfl
  | resetSession =>
    obtain rfl := Option.some.inj ha
    exact h.congr (fun _ _ => rfl) rfl rfl rfl rfl rfl
  | notifyStarting | notifyStarted | notifyRestarted | notifyRetrying | notifyStopped
  | releaseCallbacks =>
    obtain rfl := Option.some.inj ha
    exact h.congr (fun a _ => due_emit ..) rfl rfl rfl rfl rfl

theorem performAll (h : Control m t.core.course (t.due env)) {actions : List Action}
    (ha : actions.foldlM Marks.act m = some m') (closed : Turn → Turn) :
    Control m' (actions.foldl (Turn.perform closed) t).core.course
        ((actions.foldl (Turn.perform closed) t).due env) ∧
      (actions.foldl (Turn.perform closed) t).core.phase = t.core.phase := by
  induction actions generalizing m t with
  | nil => obtain rfl := Option.some.inj ha; exact ⟨h, rfl⟩
  | cons a actions ih =>
    obtain ⟨m₁, ha₁, ha⟩ := Option.bind_eq_some_iff.mp ha
    obtain ⟨hc, hp⟩ := ih (h.perform ha₁ closed) ha
    exact ⟨hc, hp.trans (h.phase_perform ha₁ closed)⟩

theorem course_performAll (h : Control m t.core.course (t.due env)) {actions : List Action}
    (ha : actions.foldlM Marks.act m = some m') (closed : Turn → Turn) :
    (actions.foldl (Turn.perform closed) t).core.course =
      actions.foldl Course.act t.core.course := by
  induction actions generalizing m t with
  | nil => rfl
  | cons a actions ih =>
    obtain ⟨m₁, ha₁, ha⟩ := Option.bind_eq_some_iff.mp ha
    rw [List.foldl_cons, List.foldl_cons, ih (h.perform ha₁ closed) ha, h.course_perform ha₁]

theorem enter (h : Control m t.core.course (t.due env)) (next : Phase) :
    Control m (t.enter next).core.course ((t.enter next).due env) :=
  h.congr (fun a _ => (silent_enter t next).due env a) rfl rfl rfl rfl rfl

theorem fire (h : Control m t.core.course (t.due env)) {trigger : Trigger}
    (hm : t.core.phase.marks.spend trigger = some m) :
    Control (t.fire trigger).core.phase.marks (t.fire trigger).core.course
      ((t.fire trigger).due env) := by
  rcases fire_cases t hm with ⟨he, -, hle⟩ | ⟨next, actions, m', -, ha, hle, he⟩
  · rw [he]
    exact h.mono hle
  · obtain ⟨hc, hp⟩ := (h.enter next).performAll ha fireClosed
    rw [he, hp]
    exact hc.mono hle

theorem phase_fire (h : Control m t.core.course (t.due env)) {trigger : Trigger}
    (hm : t.core.phase.marks.spend trigger = some m) : (t.fire trigger).core.phase =
      ((t.core.phase.transition trigger).map (·.next)).getD t.core.phase := by
  rcases fire_cases t hm with ⟨he, hn, -⟩ | ⟨next, actions, m', hn, ha, -, he⟩
  · rw [he, hn]
    rfl
  · rw [he, hn, ((h.enter next).performAll ha fireClosed).2]
    rfl

section Signals

variable {c : Core} {x : Signal} {d : Awaited → Nat}

theorem isCurrent_iff (h : Control m c.course due) {k : ConnectionId} :
    c.isCurrent k ↔ m.connected ∧ k = ⟨c.connections⟩ := by
  have hk : c.connection = if m.connected then some ⟨c.connections⟩ else none := h.connection
  rw [Core.isCurrent, hk]
  cases m.connected <;> simp [eq_comm]

/-- What comes to an end may be something that does not matter any more. -/
theorem less (h : Control m c.course d) (hle : ∀ a, env a ≤ d a) (hl : env .lookup = d .lookup)
    (hf : env .flush = d .flush) (hr : m.resume.Holds (c.pendingStarts ≠ []) (env .resume))
    (ho : m.connected → env (.reply (.opened ⟨c.connections⟩)) =
      d (.reply (.opened ⟨c.connections⟩)))
    (hc : m.connected → env (.reply (.closed ⟨c.connections⟩)) =
      d (.reply (.closed ⟨c.connections⟩))) : Control m c.course env where
  connection := h.connection
  endpoint := h.endpoint
  lookup := hl.trans h.lookup
  flush := hf.trans h.flush
  opened := fun hm => (ho hm).trans (h.opened hm)
  closed := fun hm => (hc hm).trans (h.closed hm)
  newest := fun n hn =>
    ⟨Nat.eq_zero_of_le_zero ((h.newest n hn).1 ▸ hle _),
      Nat.eq_zero_of_le_zero ((h.newest n hn).2 ▸ hle _)⟩
  resume := hr
  stops := h.stops

theorem resume_holds (h : Control m c.course due) :
    m.resume.Holds (c.pendingStarts ≠ []) (due .resume) := h.resume

theorem unaffected (h : Control m c.course d) (hd : ∀ a, d a = env a + x.awaited.count a)
    (hx : ∀ a ∈ x.awaited, a.steers = false) : Control m c.course env := by
  refine h.congr (fun a ha => ?_) rfl rfl rfl rfl rfl
  have hz : x.awaited.count a = 0 := List.count_eq_zero.mpr fun hm => by simp [hx a hm] at ha
  rw [hd, hz, Nat.add_zero]

/-- A signal that comes too late ends nothing that matters. -/
theorem late (h : Control m c.course d) (hd : ∀ a, d a = env a + x.awaited.count a)
    (hx : x.isSteady = false) (ht : x.trigger? c = none) : Control m c.course env := by
  have hle : ∀ a, env a ≤ d a := fun a => hd a ▸ Nat.le_add_right ..
  cases x with
  | opened k result =>
    have hk : ¬ c.isCurrent k := by
      intro hk
      cases result <;> simp [Signal.trigger?, hk] at ht
    have hne : m.connected → k ≠ ⟨c.connections⟩ := fun hm he => hk (h.isCurrent_iff.mpr ⟨hm, he⟩)
    refine h.less hle ?_ ?_ (by simpa [hd, Signal.awaited] using h.resume_holds)
      (fun hm => ?_) (fun hm => ?_) <;> simp [hd, Signal.awaited, List.count_singleton]
    exact hne hm
  | closed k =>
    have hk : ¬ c.isCurrent k := by intro hk; simp [Signal.trigger?, hk] at ht
    have hne : m.connected → k ≠ ⟨c.connections⟩ := fun hm he => hk (h.isCurrent_iff.mpr ⟨hm, he⟩)
    refine h.less hle ?_ ?_ (by simpa [hd, Signal.awaited] using h.resume_holds)
      (fun hm => ?_) (fun hm => ?_) <;> simp [hd, Signal.awaited, List.count_singleton]
    exact hne hm
  | timerEnded timer popped => exact h.unaffected hd (by simp [Signal.awaited, Awaited.steers])
  | disconnected k cause => exact h.unaffected hd (by simp [Signal.awaited])
  | endpointAnswered result => rcases result with e | (e | delay) <;> cases ht
  | start | stop | callbackFailed | flushed | subscriptionsRemade => cases ht
  | _ => cases hx

theorem recordError (h : Control m c.course due) (cause : ClientError) :
    Control m (c.recordError cause).course due := by
  rw [Core.recordError_eq]
  exact h.congr (fun _ _ => rfl) rfl rfl rfl rfl rfl

theorem disconnected (h : Control m c.course due) :
    Control m.disconnected { c with connection := none }.course due :=
  { h with connection := rfl, opened := nofun, closed := nofun }

theorem answered (h : Control m c.course d)
    (hd : ∀ a, d a = env a + [Awaited.lookup].count a) (hown : env .resume = 0) :
    ∃ m', m.answered = some m' ∧ Control m' c.course env := by
  have hl := h.lookup
  rw [hd, List.count_singleton_self] at hl
  refine ⟨_, if_neg (by omega), h.connection, h.endpoint, ?lookup, ?flush, ?opened, ?closed,
    ?newest, hown, h.stops⟩
  case lookup =>
    simp only
    omega
  case flush => rw [← h.flush, hd]; simp
  case opened => intro hm; rw [← h.opened hm, hd]; simp
  case closed => intro hm; rw [← h.closed hm, hd]; simp
  case newest => intro n hn; have := h.newest n hn; simpa [hd] using this

theorem opened_spent (h : Control m c.course d) {k : ConnectionId}
    (hd : ∀ a, d a = env a + [Awaited.reply (.opened k)].count a) (hk : c.isCurrent k) :
    ∃ m', m.opened = some m' ∧ Control m' c.course env := by
  obtain ⟨hm, rfl⟩ := h.isCurrent_iff.mp hk
  have ho := h.opened hm
  simp only [hd, Core.course, List.count_singleton_self] at ho
  refine ⟨_, if_pos ⟨hm, by omega⟩, h.connection, h.endpoint, ?lookup, ?flush, ?opened, ?closed,
    ?newest, ?resume, h.stops⟩
  case lookup => rw [← h.lookup, hd]; simp
  case flush => rw [← h.flush, hd]; simp
  case opened =>
    intro _
    simp only [Core.course]
    omega
  case closed => intro hm; rw [← h.closed hm, hd]; simp
  case newest => intro n hn; have := h.newest n hn; simp only [hd] at this; omega
  case resume => have := h.resume; simpa [hd] using this

theorem flush_spent (h : Control m c.course d)
    (hd : ∀ a, d a = env a + [Awaited.flush].count a) :
    m.flushes ≠ 0 ∧ Control { m with flushes := m.flushes - 1 } c.course env := by
  have hf := h.flush
  rw [hd, List.count_singleton_self] at hf
  refine ⟨by omega, h.connection, h.endpoint, ?lookup, ?flush, ?opened, ?closed, ?newest, ?resume,
    h.stops⟩
  case lookup => rw [← h.lookup, hd]; simp
  case flush =>
    simp only
    omega
  case opened => intro hm; rw [← h.opened hm, hd]; simp
  case closed => intro hm; rw [← h.closed hm, hd]; simp
  case newest => simpa [hd] using h.newest
  case resume => simpa [hd] using h.resume

/-- What the marks tell at the moment a trigger fires. -/
theorem spend (h : Control m c.course d) (hd : ∀ a, d a = env a + x.awaited.count a)
    (hown : .lookup ∈ x.awaited → env .resume = 0)
    (hr : x = .subscriptionsRemade → m.remade ≠ .absent) {trigger : Trigger}
    (ht : x.trigger? c = some trigger) :
    ∃ m', m.spend trigger = some m' ∧ Control m' (x.prepare c).course env := by
  have hle : ∀ a, env a ≤ d a := fun a => hd a ▸ Nat.le_add_right ..
  -- A signal that ends nothing leaves everything under way.
  have hsame : x.awaited = [] → env = d := fun hx => funext fun a => by rw [hd, hx]; rfl
  cases Signal.trigger?_eq_some_iff.mp ht with
  | start p =>
    refine ⟨_, rfl, ?_⟩
    have hloose : Control { m with resume := .any } c.course d := { h with resume := trivial }
    have hres : m.resume.blur.Holds (c.pendingStarts ++ p.toList ≠ []) (env .resume) := by
      cases hm : m.resume with
      | absent =>
        have hz := h.resume
        rw [hm] at hz
        exact Nat.eq_zero_of_le_zero (hz ▸ hle .resume)
      | exact | any => trivial
    have h' : Control { m with resume := .any } c.course env :=
      hloose.less hle (by cases p <;> simp [hd, Signal.awaited])
        (by cases p <;> simp [hd, Signal.awaited]) trivial
        (fun _ => by cases p <;> simp [hd, Signal.awaited])
        (fun _ => by cases p <;> simp [hd, Signal.awaited])
    exact { h' with resume := hres }
  | stop p =>
    obtain rfl := hsame rfl
    exact ⟨_, rfl, { h with stops := fun hs => by cases hs }⟩
  | callbackFailed cause =>
    obtain rfl := hsame rfl
    exact ⟨_, rfl, { h.recordError cause with stops := fun hs => by cases hs }⟩
  | endpointFound endpoint =>
    obtain ⟨m', hm, h'⟩ := h.answered hd (hown (List.mem_singleton_self _))
    exact ⟨{ m' with located := true }, by simp only [Marks.spend, hm, Option.map_some],
      { h' with endpoint := fun _ => rfl }⟩
  | endpointRetry delay =>
    obtain ⟨m', hm, h'⟩ := h.answered hd (hown (List.mem_singleton_self _))
    exact ⟨m', hm, h'.congr (fun _ _ => rfl) rfl rfl rfl rfl rfl⟩
  | endpointFatal cause =>
    obtain ⟨m', hm, h'⟩ := h.answered hd (hown (List.mem_singleton_self _))
    exact ⟨m', hm, h'.recordError cause⟩
  | openSucceeded k hk => exact h.opened_spent hd hk
  | openRetryable k cause hk | openFatal k cause hk =>
    obtain ⟨m', hm, h'⟩ := h.opened_spent hd hk
    exact ⟨m'.disconnected, by simp only [Marks.spend, hm, Option.map_some],
      h'.disconnected.recordError cause⟩
  | connectionClosed k hk =>
    obtain ⟨hm, rfl⟩ := h.isCurrent_iff.mp hk
    have hc := h.closed hm
    simp only [hd, Core.course, Signal.awaited, List.count_singleton_self] at hc
    refine ⟨m.disconnected, if_pos ⟨hm, by omega⟩, ?_⟩
    exact h.disconnected.less hle (by simp [hd, Signal.awaited]) (by simp [hd, Signal.awaited])
      (by simpa [hd, Signal.awaited, Marks.disconnected] using h.resume_holds)
      (fun hm => by cases hm) (fun hm => by cases hm)
  | timerPopped timer | timerCancelled timer =>
    have h' : Control m c.course env := h.unaffected hd (by simp [Signal.awaited, Awaited.steers])
    exact ⟨m, rfl, h'.congr (fun _ _ => rfl) rfl rfl rfl rfl rfl⟩
  | networkError k cause hk | replaced k cause hk =>
    obtain ⟨hm, rfl⟩ := h.isCurrent_iff.mp hk
    obtain rfl := hsame rfl
    exact ⟨m, if_pos hm, h.recordError cause⟩
  | callbacksFlushed =>
    obtain ⟨hf, h'⟩ := h.flush_spent hd
    exact ⟨_, if_neg hf, h'⟩
  | subscriptionsRemade =>
    have h' : Control m c.course env := h.unaffected hd (by simp [Signal.awaited, Awaited.steers])
    cases hm : m.remade with
    | absent => exact absurd hm (hr rfl)
    | exact =>
      exact ⟨{ m with remade := .absent, rows := m.rows.renewed }, by simp only [Marks.spend, hm],
        { h' with }⟩
    | any => exact ⟨m, by simp only [Marks.spend, hm], h'⟩

end Signals

end Control

end PubSub
