import PubSub.Proofs.Handling
import PubSub.Proofs.Holding

/-! # What is true of every client

A client posts signals to itself only while it waits for no lookup, so it gets
to them before the answer to a lookup that it asks for later. With this order,
what the phase tells is true of every client at every moment.
-/

namespace PubSub

open Session (Reply)

namespace Turn

theorem Stays.mem_posted {t t' : Turn} (h : t.Stays t') {x : Signal} (hx : x ∈ t'.posted) :
    x ∈ t.posted ∨ x = .subscriptionsRemade := by
  obtain ⟨es, he, hs⟩ := h.effects
  rw [posted_of_effects he, List.mem_append, List.mem_flatMap] at hx
  refine hx.imp id ?_
  rintro ⟨e, hm, hp⟩
  have hsteady : e.isSteady := hs e hm
  unfold Effect.isSteady at hsteady
  split at hsteady <;> simp_all [Effect.posted]

end Turn

def Action.posts : Action → Bool
  | remakeSubscriptions | replayPendingWork | resumeStart => true
  | _ => false

theorem Phase.isLookup_of_posts {p : Phase} {trigger : Trigger} {next : Phase}
    {actions : List Action} (h : p.transition trigger = some ⟨next, actions⟩)
    (ha : ∃ a ∈ actions, a.posts) : next.isLookup = false := by
  have hall : ∀ (p : Phase) (trigger : Trigger), ∀ n ∈ p.transition trigger,
      (∃ a ∈ n.actions, a.posts) → n.next.isLookup = false := by decide
  exact hall _ _ _ h ha

namespace Control

open Turn

variable {m m' : Marks} {due env : Awaited → Nat} {t : Turn}

theorem mem_posted_perform (h : Control m t.core.course due) {a : Action}
    (ha : m.act a = some m') (closed : Turn → Turn) {x : Signal}
    (hx : x ∈ (t.perform closed a).posted) : x ∈ t.posted ∨ x.isOwn ∧ a.posts := by
  have own {t' : Turn} (hs : t.Stays t') (hx : x ∈ t'.posted) : x ∈ t.posted ∨ x.isOwn :=
    (hs.mem_posted hx).imp id (by rintro rfl; rfl)
  have silent {t' : Turn} (hs : t.Silent t') (hx : x ∈ t'.posted) : x ∈ t.posted :=
    hs.posted ▸ hx
  cases a with
  | remakeSubscriptions => exact (own (stays_remake t) hx).imp id fun ho => ⟨ho, rfl⟩
  | replayPendingWork => exact (own (stays_replayPending t) hx).imp id fun ho => ⟨ho, rfl⟩
  | resumeStart =>
    rw [Turn.perform, posted_of_effects (effects_resumeStart t), List.mem_append] at hx
    refine hx.imp id fun hx => ?_
    split at hx <;> simp [Effect.posted] at hx
    exact ⟨hx ▸ rfl, rfl⟩
  | openConnection =>
    obtain ⟨e, -, -, he⟩ := h.perform_openConnection ha closed
    rw [posted_of_effects he] at hx
    exact .inl (by simpa [Effect.posted] using hx)
  | closeConnection =>
    rw [h.perform_closeConnection ha, posted_of_effects (effects_request ..)] at hx
    exact .inl (by simpa [Effect.posted] using hx)
  | requestEndpoint =>
    rw [Turn.perform, posted_of_effects (effects_request ..)] at hx
    exact .inl (by simpa [Effect.posted] using hx)
  | flushCallbacks =>
    rw [Turn.perform, posted_of_effects (effects_emit ..)] at hx
    exact .inl (by simpa [Effect.posted] using hx)
  | startRetryTimer =>
    rw [Turn.perform, startTimer, posted_of_effects (effects_request ..)] at hx
    exact .inl (silent ((silent_cancelTimer t).update rfl) (by simpa [Effect.posted] using hx))
  | breakConnection => exact .inl (silent (silent_breakConnection t) hx)
  | cleanup => exact .inl (silent (silent_cleanup t) hx)
  | cancelRetryTimer => exact .inl (silent (silent_cancelTimer t) hx)
  | markEndpointGood => exact .inl (silent (silent_reportEndpoint t) hx)
  | succeedPendingStarts | failPendingStarts => exact .inl (silent (silent_settleStarts t _) hx)
  | succeedPendingStops => exact .inl (silent (silent_settleStops t) hx)
  | discardConnection | resetSession => exact .inl hx
  | notifyRetrying | notifyStopped => exact .inl (silent (silent_notifyCause t _) hx)
  | notifyStarting | notifyStarted | notifyRestarted | releaseCallbacks =>
    exact .inl (silent ((Silent.refl t).emit rfl) hx)

theorem mem_posted_performAll (h : Control m t.core.course (t.due env)) {actions : List Action}
    (ha : actions.foldlM Marks.act m = some m') (closed : Turn → Turn) {x : Signal}
    (hx : x ∈ (actions.foldl (Turn.perform closed) t).posted) :
    x ∈ t.posted ∨ x.isOwn ∧ ∃ a ∈ actions, a.posts := by
  induction actions generalizing m t with
  | nil => exact .inl hx
  | cons a actions ih =>
    obtain ⟨m₁, ha₁, ha⟩ := Option.bind_eq_some_iff.mp ha
    rcases ih (h.perform ha₁ closed) ha hx with hx | ⟨ho, b, hb, hp⟩
    · exact (h.mem_posted_perform ha₁ closed hx).imp id
        fun ⟨ho, hp⟩ => ⟨ho, a, List.mem_cons_self .., hp⟩
    · exact .inr ⟨ho, b, List.mem_cons_of_mem _ hb, hp⟩

/-- A client that posts a signal to itself waits for no lookup. -/
theorem mem_posted_fire (h : Control m t.core.course (t.due env)) {trigger : Trigger}
    (hm : t.core.phase.marks.spend trigger = some m) {x : Signal}
    (hx : x ∈ (t.fire trigger).posted) :
    x ∈ t.posted ∨ x.isOwn ∧ (t.fire trigger).core.phase.isLookup = false := by
  rcases fire_cases t hm with ⟨he, -⟩ | ⟨next, actions, m', hn, ha, -, he⟩
  · rw [he] at hx
    exact .inl hx
  · rw [he] at hx ⊢
    rw [((h.enter next).performAll ha fireClosed).2]
    refine ((h.enter next).mem_posted_performAll ha fireClosed hx).imp ?_ ?_
    · intro hx
      exact (silent_enter t next).posted ▸ hx
    · exact fun ⟨ho, hp⟩ => ⟨ho, Phase.isLookup_of_posts hn hp⟩

end Control

namespace Turn

variable {t : Turn}

theorem issues_handle_steady {x : Signal} (hx : x.isSteady) (hk : t.core.connection = none) :
    Issues (·.settled ≠ []) t (t.handle x) := by
  have hcur (k : ConnectionId) : t.core.isCurrent k = false := by simp [Core.isCurrent, hk]
  cases x with
  | work w =>
    simp only [handle, onWork, execute, hk]
    split
    · exact .of_effects (effects_reject ..) (by cases w <;> simp [Work.refusal, Effect.settled])
    · exact .of_effects (l := []) (by simp) (by simp)
    · exact .of_effects (l := []) (by simp) (by simp)
  | sent k id result =>
    simp only [handle, onSent]
    split
    · exact .refl t
    · split_ifs
      · exact .refl t
      · exact .refl t
      · exact .of_effects (effects_finishSend ..) (by simp [Effect.settled])
  | confirm id p =>
    simp only [handle, onConfirm]
    split
    · exact .of_effects (effects_settle ..) (by simp [Effect.settled])
    · rw [acknowledge, if_neg (by simp [Core.isCurrent, hk])]
      exact .of_effects (effects_settle ..) (by simp [Effect.settled])
  | subscribed k topic result =>
    simp only [handle, onSubscribed, hcur]
    exact .refl t
  | unsubscribed k topic result =>
    simp only [handle, onUnsubscribed, hcur]
    exact .refl t
  | delivered k message =>
    simp only [handle, onDelivered, hcur]
    exact .refl t
  | autoConfirm d =>
    simp only [handle, acknowledge, hcur]
    exact .refl t
  | _ => cases hx

theorem posted_handle_steady {x : Signal} (hx : x.isSteady) (hk : t.core.connection = none) :
    (t.handle x).posted = t.posted := by
  obtain ⟨es, he, hsettled⟩ := issues_handle_steady hx hk
  have hnone : es.flatMap Effect.posted = [] := by
    rw [List.flatMap_eq_nil_iff]
    intro e hm
    cases e with
    | post => exact absurd rfl (hsettled _ hm)
    | _ => rfl
  rw [posted_of_effects he, hnone, List.append_nil]

end Turn

namespace Sound

open Turn

variable {lost : ConnectionId → Topic → Prop} {c : Core} {d env : Awaited → Nat} {x y : Signal}

theorem mem_posted_handle (h : Sound lost c d) (hd : ∀ a, d a = env a + x.awaited.count a)
    (hown : .lookup ∈ x.awaited → env .resume = 0) (hy : y ∈ (c.handle x).posted) :
    y.isOwn ∧ (c.handle x).core.phase.isLookup = false := by
  unfold Core.handle at hy ⊢
  by_cases hx : x.isSteady
  · have hs := stays_handle (begin c) hx
    have hp : ((begin c).handle x).core.phase = c.phase := congrArg Course.phase hs.course
    have hown : y.isOwn := ((hs.mem_posted hy).resolve_left (by simp [posted])) ▸ rfl
    refine ⟨hown, ?_⟩
    rw [hp]
    by_contra hl
    have hk : c.connection = none := by
      have hconn : c.connection = _ := h.control.connection
      rw [hconn, if_neg]
      revert hl
      cases c.phase <;> decide
    rw [posted_handle_steady (t := begin c) hx hk] at hy
    simp [posted] at hy
  · rw [handle_of_not_isSteady _ (by simpa using hx)] at hy ⊢
    cases ht : x.trigger? (begin c).core with
    | none =>
      rw [ht] at hy
      simp [posted] at hy
    | some trigger =>
      simp only [ht] at hy ⊢
      obtain ⟨m, hm, hc⟩ := h.control.spend hd hown (h.remade_ne_absent hd) ht
      exact (Control.mem_posted_fire (t := (begin c).update x.prepare) hc (by simpa using hm)
        hy).resolve_left (by simp [posted])

end Sound

theorem Signal.awaited_of_isOwn {x : Signal} (h : x.isOwn) :
    ∀ a ∈ x.awaited, a = .resume ∨ a = .remade := by
  cases x with
  | start p => cases p <;> simp [awaited]
  | subscriptionsRemade => simp [awaited]
  | _ => cases h

theorem Signal.isOwn_of_awaited {x : Signal} {a : Awaited} (ha : a = .resume ∨ a = .remade)
    (h : a ∈ x.awaited) : x.isOwn := by
  cases x with
  | start p =>
    cases p with
    | none => rfl
    | some p => simp [awaited] at h
  | subscriptionsRemade => rfl
  | _ => rcases ha with rfl | rfl <;> simp [awaited] at h

/-- A subscribe was answered with the error of a lost connection. -/
def Lost {ℓ : Type} (past : List (Move ℓ)) (k : ConnectionId) (topic : Topic) : Prop :=
  ∃ result, Outcome.isRetryable result ∧ .answer (.subscribed k topic) result ∈ past

theorem Lost.append {ℓ : Type} {past : List (Move ℓ)} {k : ConnectionId} {topic : Topic}
    (h : Lost past k topic) {m : Move ℓ} : Lost (past ++ [m]) k topic :=
  h.imp fun _ => And.imp id (List.mem_append_left _)

namespace System

variable {ℓ : Type} {s s' : System ℓ} {past : List (Move ℓ)}

/-- A signal of the client's own is under way in its queue only. -/
theorem due_own (s : System ℓ) {a : Awaited} (ha : a = .resume ∨ a = .remade) :
    s.due a = (s.queue.flatMap Signal.awaited).count a := by
  have he (e : Effect) : e.awaited.count a = (e.posted.flatMap Signal.awaited).count a := by
    cases e with
    | request r =>
      rcases ha with rfl | rfl <;> cases r <;>
        simp [Effect.awaited, Effect.posted, Request.reply?]
    | _ => rcases ha with rfl | rfl <;> simp [Effect.awaited, Effect.posted]
  have hagenda (es : List Effect) : (es.flatMap Effect.awaited).count a =
      ((es.flatMap Effect.posted).flatMap Signal.awaited).count a := by
    induction es with
    | nil => rfl
    | cons e es ih =>
      simp only [List.flatMap_cons, List.flatMap_append, List.count_append, ih, he]
  have hlookups : (List.replicate s.lookups Awaited.lookup).count a = 0 := by
    rcases ha with rfl | rfl <;> simp [List.count_replicate]
  have hcalls : (s.calls.map Awaited.reply).count a = 0 := by
    rcases ha with rfl | rfl <;> simp [List.count_eq_zero]
  have hjobs : (s.jobs.flatMap Job.awaited).count a = 0 := by
    rw [List.count_eq_zero, List.mem_flatMap]
    rintro ⟨job, -, hm⟩
    unfold Job.awaited at hm
    rcases ha with rfl | rfl <;> split at hm <;> simp at hm
  simp only [due, awaited, queue, List.flatMap_append, List.count_append, hagenda, hlookups,
    hcalls, hjobs, Nat.zero_add]

/-- What is under way besides the signal whose turn begins. -/
def beside (s : System ℓ) (x : Signal) (a : Awaited) : Nat := s.due a - x.awaited.count a

theorem due_eq_beside {x : Signal} {rest : List Signal} (hq : s.client.mailbox.waiting = x :: rest)
    (a : Awaited) : s.due a = beside s x a + x.awaited.count a := by
  have hle : x.awaited.count a ≤ s.due a := by
    simp only [due, awaited, hq, List.flatMap_cons, List.count_append]
    omega
  exact (Nat.sub_add_cancel hle).symm

/-- In the course of a turn, what is under way is that of the turn and what is besides. -/
theorem due_eq_due_handle {x : Signal} (h : s.step (.take x) = some s') :
    s'.due = (s.client.core.handle x).due (beside s x) := by
  obtain ⟨-, rest, hw, -⟩ := step_take h
  funext a
  have := due_take h a
  rw [due_eq_beside hw a] at this
  simp only [Turn.due]
  omega

structure Coherent (past : List (Move ℓ)) (s : System ℓ) : Prop where
  sound : Sound (Lost past) s.client.core s.due
  /-- No signal of the client's own comes after the answer to a lookup. -/
  order : s.queue.Pairwise fun x y => .lookup ∈ x.awaited → y.isOwn = false
  /-- What the client is going to post are signals of its own, and meanwhile it waits for no
  lookup. -/
  posted : ∀ x ∈ s.agenda.flatMap Effect.posted, x.isOwn ∧ s.client.core.phase.isLookup = false
  answered : ∀ x ∈ s.queue, ∀ r, .reply r ∈ x.awaited →
    ∃ result, x = r.signal result ∧ .answer r result ∈ past

namespace Coherent

theorem new (id : String) (threshold : Nat) : Coherent [] (System.new id threshold : System ℓ) where
  sound := .new
  order := .nil
  posted := by simp [System.new]
  answered := by simp [System.new, System.queue, Client.new, Mailbox.empty]

theorem move (h : Coherent past s) {m : Move ℓ} (hs : s.step m = some s')
    (hm : ∀ x, m ≠ .take x) : Coherent (past ++ [m]) s' := by
  have hqueue := queue_step hs hm
  have hcore := core_step hs hm
  have hdue : s'.due = s.due := funext fun a => due_step hs hm a
  refine ⟨?_, ?_, ?_, ?_⟩
  · rw [hcore, hdue]
    exact h.sound.mono fun k topic hl => hl.append
  · have hold := h.order
    rw [queue, List.pairwise_append] at hold
    rw [hqueue, List.pairwise_append, List.pairwise_append]
    refine ⟨hold.1, ⟨?_, hold.2.1, ?_⟩, ?_⟩
    · exact List.pairwise_of_forall_mem_list fun x _ y hy _ => (of_mem_brought hy).1
    · -- An answer to a lookup comes in only while the client posts nothing to itself.
      intro x hx y hy hl
      have hpos := due_lookup_pos hs hx hl
      have hlookup := h.sound.control.lookup
      rw [Phase.marks, (h.posted y hy).2] at hlookup
      simp only [Bool.false_eq_true, if_false] at hlookup
      omega
    · intro x hx y hy hl
      rcases List.mem_append.mp hy with hy | hy
      · exact (of_mem_brought hy).1
      · exact hold.2.2 x hx y hy hl
  · intro x hx
    rw [hcore]
    refine h.posted x ?_
    rw [agenda_step hs hm, List.flatMap_append]
    exact List.mem_append_right _ hx
  · intro x hx r hr
    rw [hqueue, List.mem_append, List.mem_append] at hx
    have hold : x ∈ s.queue → ∃ result, x = r.signal result ∧ .answer r result ∈ past ++ [m] :=
      fun hx => (h.answered x hx r hr).imp fun result => And.imp id (List.mem_append_left _)
    rcases hx with hx | hx | hx
    · exact hold (List.mem_append_left _ hx)
    · obtain ⟨result, rfl, rfl⟩ := (of_mem_brought hx).2.2 r hr
      exact ⟨result, rfl, List.mem_append_right _ (List.mem_singleton_self _)⟩
    · exact hold (List.mem_append_right _ hx)

theorem isOwn_of_performed (h : Coherent past s) {m : Move ℓ} (hs : s.step m = some s')
    {x : Signal} (hx : x ∈ m.performed.flatMap Effect.posted) : x.isOwn := by
  cases step_eq_some.mp hs with
  | perform ha =>
    refine (h.posted x ?_).1
    rw [ha, List.flatMap_cons]
    rw [Move.performed, List.flatMap_singleton] at hx
    exact List.mem_append_left _ hx
  | _ => cases hx

/-- Once the answer to a lookup is next, no signal of the client's own is under way. -/
theorem beside_own (h : Coherent past s) {x : Signal} {rest : List Signal}
    (hq : s.queue = x :: rest) (hl : .lookup ∈ x.awaited) {a : Awaited}
    (ha : a = .resume ∨ a = .remade) : beside s x a = 0 := by
  have hrest := (List.pairwise_cons.mp (hq ▸ h.order)).1
  have hcount : (rest.flatMap Signal.awaited).count a = 0 := by
    rw [List.count_eq_zero, List.mem_flatMap]
    rintro ⟨y, hy, hay⟩
    have := Signal.isOwn_of_awaited ha hay
    rw [hrest y hy hl] at this
    cases this
  rw [beside, due_own s ha, hq, List.flatMap_cons, List.count_append, hcount]
  omega

theorem beside_take (h : Coherent past s) {x : Signal} (hs : s.step (.take x) = some s') :
    (∀ a, s.due a = beside s x a + x.awaited.count a) ∧
      (.lookup ∈ x.awaited → beside s x .resume = 0 ∧ beside s x .remade = 0) := by
  obtain ⟨ha, rest, hw, -⟩ := step_take hs
  have hq : s.queue = x :: rest := by simp [queue, ha, hw]
  refine ⟨due_eq_beside hw, fun hl => ?_⟩
  exact ⟨h.beside_own hq hl (.inl rfl), h.beside_own hq hl (.inr rfl)⟩

theorem take (h : Coherent past s) {x : Signal} (hs : s.step (.take x) = some s') :
    Coherent (past ++ [.take x]) s' := by
  obtain ⟨hd, hown⟩ := h.beside_take hs
  have hd' := due_eq_due_handle hs
  obtain ⟨ha, rest, hw, rfl⟩ := step_take hs
  have hq : s.queue = x :: rest := by simp [queue, ha, hw]
  have hlost : ∀ k topic result, x = .subscribed k topic result → Outcome.isRetryable result →
      Lost past k topic := by
    rintro k topic result rfl hr
    obtain ⟨result', he, hp⟩ := h.answered _ (hq ▸ List.mem_cons_self ..) (.subscribed k topic)
      (List.mem_singleton_self _)
    injection he with _ _ he
    subst he
    exact ⟨result, hr, hp⟩
  have hposted (y : Signal) (hy : y ∈ (s.client.core.handle x).posted) :=
    h.sound.mem_posted_handle hd (fun hl => (hown hl).1) hy
  have hsound : Sound (Lost past) (s.client.core.handle x).core (s.begin x ⟨rest, true⟩).due :=
    hd' ▸ h.sound.handle hd hown hlost
  have hqueue : (s.begin x ⟨rest, true⟩).queue = rest ++ (s.client.core.handle x).posted := rfl
  refine ⟨?_, ?_, hposted, ?_⟩
  · exact hsound.mono fun k topic hl => hl.append
  · rw [hqueue, List.pairwise_append]
    refine ⟨(List.pairwise_cons.mp (hq ▸ h.order)).2, ?_, ?_⟩
    · refine List.pairwise_of_forall_mem_list fun y hy _ _ hl => ?_
      exact absurd (Signal.awaited_of_isOwn (hposted y hy).1 _ hl) (by simp)
    · -- The answer to a lookup that waits would belong to a lookup that nobody waits for.
      intro y hy z hz hl
      have hzero := hsound.control.lookup
      rw [Phase.marks, (hposted z hz).2] at hzero
      simp only [Bool.false_eq_true, if_false] at hzero
      have hpos : 0 < (rest.flatMap Signal.awaited).count .lookup :=
        List.count_pos_iff.mpr (List.mem_flatMap.mpr ⟨y, hy, hl⟩)
      simp only [due, awaited, begin, List.count_append] at hzero
      omega
  · intro y hy r hr
    rw [hqueue, List.mem_append] at hy
    rcases hy with hy | hy
    · exact (h.answered y (hq ▸ List.mem_cons_of_mem _ hy) r hr).imp fun result =>
        And.imp id (List.mem_append_left _)
    · exact absurd (Signal.awaited_of_isOwn (hposted y hy).1 _ hr) (by simp)

theorem handles (h : Coherent past s) {x : Signal} (hs : s.step (.take x) = some s') :
    Handles s.client.core (beside s x) x :=
  let ⟨hd, hown⟩ := h.beside_take hs
  h.sound.handles hd fun hl => (hown hl).1

theorem step (h : Coherent past s) {m : Move ℓ} (hs : s.step m = some s') :
    Coherent (past ++ [m]) s' := by
  cases m with
  | take x => exact h.take hs
  | _ => exact h.move hs (by simp)

end Coherent

end System

theorem Reached.coherent {ℓ : Type} {past : List (Move ℓ)} {s : System ℓ} (h : Reached past s) :
    s.Coherent past :=
  h.induction (fun id threshold => .new id threshold) fun _ ih hs => ih.step hs

end PubSub
