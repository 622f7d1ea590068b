import PubSub.Proofs.Sessions
import PubSub.Proofs.Stops

/-! # The end of a session

A client that is to be stopped cleans up and then waits for the callbacks of the
session: the flush that tells of their end is submitted after all of them. A
stop succeeds when the client is stopped. So where callbacks end in the order
in which they were submitted, those of the session have ended by then.
-/

namespace PubSub

open Turn

def Signal.stops : Signal → List PromiseId
  | stop p => [p]
  | _ => []

theorem Signal.pendingStops_prepare (x : Signal) (c : Core) :
    (x.prepare c).pendingStops = c.pendingStops ++ x.stops := by
  cases x with
  | endpointAnswered result =>
    rcases result with e | (e | delay) <;> simp [prepare, stops, Core.recordError_eq]
  | opened k result => cases result <;> simp [prepare, stops, Core.recordError_eq]
  | _ => simp [prepare, stops, Core.recordError_eq]

namespace Phase

variable {p next : Phase} {trigger : Trigger} {actions : List Action}

theorem next_of_succeedPendingStops (h : p.transition trigger = some ⟨next, actions⟩)
    (ha : .succeedPendingStops ∈ actions) : next = stopped := by
  have hall : ∀ (p : Phase) (trigger : Trigger), ∀ n ∈ p.transition trigger,
      .succeedPendingStops ∈ n.actions → n.next = stopped := by decide
  exact hall _ _ _ h ha

theorem flushes_of_isCleaned (h : p.transition trigger = some ⟨next, actions⟩)
    (hp : p.isCleaned = false) (hn : next.isCleaned) :
    ∃ before, actions = before ++ [.flushCallbacks] := by
  have hall : ∀ (p : Phase) (trigger : Trigger), ∀ n ∈ p.transition trigger,
      p.isCleaned = false → n.next.isCleaned → n.actions.getLast? = some .flushCallbacks := by
    decide
  exact List.getLast?_eq_some_iff.mp (hall _ _ _ h hp hn)

theorem after_ne_stoppingFlush (trigger : Option Trigger) :
    stopped.after trigger.toList ≠ stoppingFlush := by
  cases trigger with
  | none => decide
  | some trigger =>
    revert trigger
    decide

end Phase

theorem Course.pendingStops_act {c : Course} {a : Action} (hs : a ≠ .succeedPendingStops) :
    (c.act a).pendingStops = c.pendingStops := by
  cases a <;> first | rfl | exact absurd rfl hs

namespace Turn

variable {m m' : Marks} {due env : Awaited → Nat} {t : Turn}

theorem pendingStops_perform (hc : Control m t.core.course due) {a : Action}
    (ha : m.act a = some m') (hs : a ≠ .succeedPendingStops) (closed : Turn → Turn) :
    (t.perform closed a).core.pendingStops = t.core.pendingStops :=
  (congrArg Course.pendingStops (hc.course_perform ha closed)).trans (Course.pendingStops_act hs)

/-- A stop goes on waiting unless stops succeed. -/
theorem pendingStops_performAll (hc : Control m t.core.course (t.due env)) {actions : List Action}
    (ha : actions.foldlM Marks.act m = some m') (closed : Turn → Turn) {p : PromiseId}
    (hp : p ∈ t.core.pendingStops) :
    p ∈ (actions.foldl (perform closed) t).core.pendingStops ∨ .succeedPendingStops ∈ actions ∧
      .settle p (.ok ()) ∈ (actions.foldl (perform closed) t).effects := by
  induction actions generalizing m t with
  | nil => exact .inl hp
  | cons a actions ih =>
    obtain ⟨m₁, ha₁, ha₂⟩ := Option.bind_eq_some_iff.mp ha
    have hc₁ := hc.perform ha₁ closed
    by_cases hs : a = .succeedPendingStops
    · subst hs
      obtain ⟨es, he, -⟩ := KeepsStarts.performAll hc₁ ha₂ closed
      refine .inr ⟨List.mem_cons_self, ?_⟩
      rw [List.foldl_cons, he, perform, effects_settleStops]
      exact List.mem_append_left _ (List.mem_append_right _ (List.mem_map_of_mem hp))
    · refine (ih hc₁ ha₂ ?_).imp id (And.imp_left (List.mem_cons_of_mem _))
      rwa [pendingStops_perform hc ha₁ hs]

end Turn

namespace Handles

variable {c : Core} {env : Awaited → Nat} {x : Signal} {p : PromiseId}

theorem pending_or_stopped (h : Handles c env x) (hp : p ∈ c.pendingStops ++ x.stops) :
    p ∈ (c.handle x).core.pendingStops ∨ (c.handle x).core.phase = .stopped ∧
      .settle p (.ok ()) ∈ (c.handle x).effects := by
  cases h with
  | steady hx stays =>
    have hnone : x.stops = [] := by cases x <;> first | rfl | cases hx
    rw [hnone, List.append_nil] at hp
    have hkept : (c.handle x).core.pendingStops = c.pendingStops :=
      congrArg Course.pendingStops stays.course
    exact .inl (hkept ▸ hp)
  | passed hx hnone _ f hf heq =>
    rw [heq, core_update, core_begin]
    rcases hf with rfl | ⟨rfl, -⟩
    · have hstops : x.stops = [] := by
        cases x <;> first | rfl | simp [Signal.trigger?, Phase.transition] at hnone
      rw [hstops, List.append_nil] at hp
      exact .inl hp
    · rw [Signal.pendingStops_prepare]
      exact .inl hp
  | @fires trigger next actions m m' hx ht hn hm hc ha hle heq =>
    rw [← Signal.pendingStops_prepare] at hp
    rw [heq, (hc.performAll ha fireClosed).2]
    exact (pendingStops_performAll hc ha fireClosed hp).imp id
      (And.imp_left (Phase.next_of_succeedPendingStops hn))

/-- A session that gets cleaned up is flushed after everything else. -/
theorem flushes (h : Handles c env x) (hp : c.phase.isCleaned = false)
    (hn : (c.handle x).core.phase.isCleaned) : ∃ es, (c.handle x).effects = es ++ [.flush] := by
  rcases h.phase_cases with hphase | ⟨trigger, next, actions, ht, hnext, hphase⟩
  · rw [hphase, hp] at hn
    cases hn
  · rw [hphase] at hn
    obtain ⟨before, rfl⟩ := Phase.flushes_of_isCleaned hnext hp hn
    rw [Core.handle_of_transition ht hnext, List.foldl_append]
    exact ⟨_, effects_emit ..⟩

end Handles

variable {ℓ : Type} {s s' : System ℓ} {past : List (Move ℓ)} {p : PromiseId}

namespace System

/-- The stop with the promise waits, or the client is stopped and the stop succeeds. -/
def Stops (past : List (Move ℓ)) (s : System ℓ) (p : PromiseId) : Prop :=
  .stop p ∈ s.client.mailbox.waiting ∨ p ∈ s.client.core.pendingStops ∨
    s.client.core.phase = .stopped ∧ p ∈ s.agenda.flatMap Effect.settled ∨
    0 < settlements past p

namespace Stops

theorem move (h : s.Stops past p) {m : Move ℓ} (hs : s.step m = some s')
    (hm : ∀ x, m ≠ .take x) : s'.Stops (past ++ [m]) p := by
  rw [Stops, core_step hs hm, waiting_step hs hm, settlements_append]
  rcases h with hwaiting | hpending | ⟨hstopped, hagenda⟩ | hsettled
  · exact .inl (List.mem_append_left _ (List.mem_append_left _ hwaiting))
  · exact .inr (.inl hpending)
  · rw [agenda_step hs hm, List.flatMap_append, List.mem_append] at hagenda
    rcases hagenda with hperformed | hagenda
    · have hpos : 0 < m.settled.count p := List.count_pos_iff.mpr hperformed
      exact .inr (.inr (.inr (Nat.lt_of_lt_of_le hpos (Nat.le_add_left ..))))
    · exact .inr (.inr (.inl ⟨hstopped, hagenda⟩))
  · exact .inr (.inr (.inr (Nat.lt_of_lt_of_le hsettled (Nat.le_add_right ..))))

theorem take (hr : Reached past s) (h : s.Stops past p) {x : Signal}
    (hs : s.step (.take x) = some s') : s'.Stops (past ++ [.take x]) p := by
  have hh := hr.handles hs
  obtain ⟨ha, rest, hw, rfl⟩ := step_take hs
  rw [Stops, settlements_append]
  have hpending (hp : p ∈ s.client.core.pendingStops ++ x.stops) :
      (s.begin x ⟨rest, true⟩).Stops (past ++ [.take x]) p := by
    rcases hh.pending_or_stopped hp with hp | ⟨hstopped, he⟩
    · exact .inr (.inl hp)
    · exact .inr (.inr (.inl ⟨hstopped, List.mem_flatMap.mpr ⟨_, he, List.mem_singleton_self p⟩⟩))
  rw [Stops, settlements_append] at hpending
  rcases h with hwaiting | hp | ⟨-, hagenda⟩ | hsettled
  · rw [hw, List.mem_cons] at hwaiting
    rcases hwaiting with rfl | hwaiting
    · exact hpending (by simp [Signal.stops])
    · exact .inl hwaiting
  · exact hpending (List.mem_append_left _ hp)
  · simp [ha] at hagenda
  · exact .inr (.inr (.inr (Nat.lt_of_lt_of_le hsettled (Nat.le_add_right ..))))

end Stops

end System

namespace Reached

theorem stops (h : Reached past s) {seen : ClientState} (hcall : .call seen .stop p ∈ past) :
    s.Stops past p := by
  refine h.turn_induction (P := fun past s => .call seen .stop p ∈ past → s.Stops past p)
    (fun _ _ h => by cases h) ?_ ?_ hcall
  · intro past s m s' hr ih hs hm hmem
    rcases List.mem_append.mp hmem with hmem | hmem
    · exact (ih hmem).move hs hm
    · obtain rfl := List.mem_singleton.mp hmem
      exact .inl (by simp [System.waiting_step hs, System.brought, Call.signal])
  · intro past s x s' hr ih hs hmem
    exact (ih (by simpa using hmem)).take hr hs

theorem stopped_of_settled (h : Reached past s) {seen : ClientState}
    (hcall : .call seen .stop p ∈ past) (hp : p ∈ s.agenda.flatMap Effect.settled) :
    s.client.core.phase = .stopped := by
  have hpos : 0 < (s.agenda.flatMap Effect.promises).count p :=
    List.count_pos_iff.mpr (Effect.promises_of_settled hp)
  obtain ⟨hopen, hone, -⟩ := h.conserved.isOpen (p := p) (by rw [System.owed]; omega)
  have hheld : p ∉ s.held := List.count_eq_zero.mp (by rw [System.owed] at hone; omega)
  rcases h.stops hcall with hwaiting | hpending | ⟨hstopped, -⟩ | hsettled
  · refine absurd (List.mem_append_left _ ?_) hheld
    exact List.mem_flatMap.mpr ⟨_, hwaiting, List.mem_singleton_self p⟩
  · exact absurd (List.mem_append_right _ (by simp [Core.held, hpending])) hheld
  · exact hstopped
  · omega

end Reached

/-- What is submitted of a session: a callback of the application, or the flush at its end. -/
inductive Submission where
  | callback
  | flush
  deriving DecidableEq, Repr

/-- A session does not wait for the callback that tells of its end, nor for that of a drained
window. -/
def Notification.submission? : Notification → Option Submission
  | stopped _ | drain => none
  | starting | started | restarted | retrying _ | delivery .. | unsubscribed .. => some .callback

def Effect.submission? : Effect → Option Submission
  | notify n => n.submission?
  | flush => some .flush
  | _ => none

def Job.submission? (job : Job ℓ) : Option Submission :=
  if job.completion = .flush then some .flush
  else match job.task with
    | .notification n => n.submission?
    | .settled .. | .flush => none

namespace Client

theorem submissions_settle (c : Client ℓ) (p : PromiseId) (result : Outcome) :
    (c.settle p result).1.filterMap Job.submission? = [] := by
  unfold settle
  split
  · rfl
  · next l _ => cases l <;> simp [Job.submission?]

theorem submissions_drainJobs (due : Bool) :
    (drainJobs due : List (Job ℓ)).filterMap Job.submission? = [] := by
  cases due <;> simp [drainJobs, Job.submission?, Notification.submission?]

theorem submissions_perform (c : Client ℓ) (e : Effect) :
    (c.perform e).1.filterMap Job.submission? = e.submission?.toList := by
  cases e with
  | notify n =>
    cases n <;> simp [perform, notificationJob, Job.submission?, Effect.submission?,
      Notification.submission?]
  | settle p result => exact submissions_settle ..
  | finishSend p result =>
    simp [perform, submissions_settle, submissions_drainJobs, Effect.submission?]
  | takeDrain => exact submissions_drainJobs _
  | _ => simp [perform, Job.submission?, Effect.submission?]

end Client

def EndsInOrder (past : List (Move ℓ)) : Prop := ∀ i result, .finish i result ∈ past → i = 0

theorem EndsInOrder.of_append {m : Move ℓ} (h : EndsInOrder (past ++ [m])) : EndsInOrder past :=
  fun i result hm => h i result (List.mem_append_left _ hm)

namespace System

/-- What is submitted of sessions and has not ended, or is going to be submitted in the turn. -/
def submissions (s : System ℓ) : List Submission :=
  s.jobs.filterMap Job.submission? ++ s.agenda.filterMap Effect.submission?

theorem due_flush_pos (h : .flush ∈ s.submissions) : 0 < s.due .flush := by
  refine List.count_pos_iff.mpr ?_
  simp only [submissions, List.mem_append, List.mem_filterMap] at h
  simp only [awaited, List.mem_append, List.mem_flatMap]
  rcases h with ⟨job, hj, hs⟩ | ⟨e, he, hs⟩
  · have hflush : job.completion = .flush := by
      by_contra hne
      rw [Job.submission?, if_neg hne] at hs
      split at hs
      · next n _ => cases n <;> cases hs
      all_goals cases hs
    exact .inl (.inl (.inr ⟨job, hj, by simp [Job.awaited, hflush]⟩))
  · have hflush : e = .flush := by
      cases e with
      | notify n => cases n <;> cases hs
      | flush => rfl
      | _ => cases hs
    exact .inr ⟨e, he, by simp [hflush, Effect.awaited]⟩

/-- Where callbacks end in order, what is left of the submissions is an end of them. -/
theorem submissions_step {m : Move ℓ} (h : s.step m = some s') (hm : ∀ x, m ≠ .take x)
    (hi : ∀ i result, m = .finish i result → i = 0) : s'.submissions <:+ s.submissions := by
  cases step_eq_some.mp h with
  | @listen p l promise result =>
    have hnone : (result.toList.map fun r => (⟨.settled l r, .failure⟩ : Job ℓ)).filterMap
        Job.submission? = [] := by cases result <;> simp [Job.submission?]
    rw [submissions, List.filterMap_append, hnone, List.append_nil]
    exact List.suffix_refl _
  | @finish i job result hj =>
    obtain rfl := hi i result rfl
    rw [submissions, submissions]
    cases s.jobs with
    | nil => exact List.suffix_refl _
    | cons j jobs =>
      rw [List.eraseIdx_cons_zero]
      obtain ⟨ended, hended⟩ := (List.suffix_cons j jobs).filterMap Job.submission?
      exact ⟨ended, by rw [← List.append_assoc, hended]⟩
  | take => exact absurd rfl (hm _)
  | @perform e rest ha =>
    have hjobs : (s.perform e rest).jobs = s.jobs ++ (s.client.perform e).1 := rfl
    have hagenda : (s.perform e rest).agenda = rest := rfl
    rw [submissions, submissions, hjobs, hagenda, ha, List.filterMap_append,
      Client.submissions_perform, List.append_assoc, List.filterMap_cons]
    cases e.submission? <;> exact List.suffix_refl _
  | _ => exact List.suffix_refl _

end System

namespace Handles

variable {c : Core} {env : Awaited → Nat} {x : Signal}

theorem callback_not_mem (h : Handles c env x) (hk : c.connection.isSome ↔ c.phase.isConnected)
    (hp : c.phase.isCleaned) (hn : (c.handle x).core.phase.isCleaned) :
    .callback ∉ (c.handle x).effects.filterMap Effect.submission? := by
  rw [List.mem_filterMap]
  rintro ⟨e, he, hs⟩
  cases e with
  | notify n =>
    cases hsession : n.isOfSession with
    | true =>
      rw [h.in_session hk hsession he] at hp
      cases hp
    | false =>
      obtain rfl : n = .starting := by
        cases n with
        | starting => rfl
        | stopped | drain => cases hs
        | _ => cases hsession
      obtain ⟨hstopped, hne⟩ := h.starts_session.mp he
      have hflushing : (c.handle x).core.phase = .stoppingFlush := by
        simpa [Phase.isCleaned, hne] using hn
      rw [h.follows.1, hstopped] at hflushing
      exact Phase.after_ne_stoppingFlush _ hflushing
  | _ => cases hs

end Handles

namespace Reached

/-- Once a session is cleaned up, its flush comes behind all of its callbacks. -/
theorem submissions_end (h : Reached past s) (hi : EndsInOrder past)
    (hp : s.client.core.phase.isCleaned) : s.submissions.getLast? ≠ some .callback := by
  refine h.turn_induction (P := fun past s => EndsInOrder past → s.client.core.phase.isCleaned →
    s.submissions.getLast? ≠ some .callback)
    (fun _ _ _ _ => by simp [System.submissions, System.new])
    ?_ ?_ hi hp
  · intro past s m s' hr ih hs hm hi hp
    rw [System.core_step hs hm] at hp
    obtain ⟨ended, hended⟩ := System.submissions_step hs hm fun i result he =>
      hi i result (by simp [he])
    have hlast := ih hi.of_append hp
    rw [← hended, List.getLast?_append] at hlast
    intro hcallback
    simp [hcallback] at hlast
  · intro past s x s' hr ih hs hi hp
    have hh := hr.handles hs
    obtain ⟨ha, rest, -, rfl⟩ := System.step_take hs
    have hp : (s.client.core.handle x).core.phase.isCleaned := hp
    have hsubmissions : (s.begin x ⟨rest, true⟩).submissions = s.submissions ++
        (s.client.core.handle x).effects.filterMap Effect.submission? := by
      simp [System.submissions, System.begin, ha]
    rw [hsubmissions]
    cases hold : s.client.core.phase.isCleaned with
    | false =>
      obtain ⟨es, he⟩ := hh.flushes hold hp
      simp [he, Effect.submission?, ← List.append_assoc]
    | true =>
      have hnone := hh.callback_not_mem hr.isSome_connection_iff hold hp
      rw [List.getLast?_append]
      intro hcallback
      cases hlast : ((s.client.core.handle x).effects.filterMap Effect.submission?).getLast? with
      | none => exact ih hi.of_append hold (by simpa [hlast] using hcallback)
      | some submission =>
        obtain rfl : submission = .callback := by simpa [hlast] using hcallback
        exact hnone (List.mem_of_getLast? hlast)

theorem submissions_of_stopped (h : Reached past s) (hi : EndsInOrder past)
    (hp : s.client.core.phase = .stopped) : s.submissions = [] := by
  have hlast := h.submissions_end hi (by rw [hp]; rfl)
  have hflush : s.due .flush = 0 := by
    rw [h.coherent.sound.control.flush, hp]
    rfl
  cases hs : s.submissions.getLast? with
  | none => exact List.getLast?_eq_none_iff.mp hs
  | some submission =>
    cases submission with
    | callback => exact absurd hs hlast
    | flush =>
      have := System.due_flush_pos (List.mem_of_getLast? hs)
      omega

end Reached

/-- Sessions are clean at their end and do not get into each other. -/
structure System.SessionsApart (past : List (Move ℓ)) (s : System ℓ) : Prop where
  clean : s.client.core.phase = .stoppingFlush ∨ s.client.core.phase = .stopped →
    s.client.core.IsClean
  stops : s.client.core.phase = .stopped → s.client.core.pendingStops = []
  starts : s.client.core.phase = .stopped → s.client.core.pendingStarts ≠ [] →
    .start none ∈ s.queue
  /-- A session begins with the turn that tells of a start, and ends with the turn that tells of a
  stop. -/
  begins : ∀ c x, (c, x) ∈ turns past → (.notify .starting ∈ (c.handle x).effects ↔
    c.phase = .stopped ∧ (c.handle x).core.phase ≠ .stopped)
  ends : ∀ c x, (c, x) ∈ turns past → ((∃ cause, .notify (.stopped cause) ∈ (c.handle x).effects) ↔
    c.phase ≠ .stopped ∧ (c.handle x).core.phase = .stopped)
  /-- What else is told of a session is told in its turns. -/
  within : ∀ c x, (c, x) ∈ turns past → ∀ n : Notification, n.isOfSession →
    .notify n ∈ (c.handle x).effects → c.phase ≠ .stopped ∧ (c.handle x).core.phase ≠ .stopped
  /-- Its callback is submitted after that of the start and before that of the stop. -/
  ordered : ∀ before n later, past = before ++ .perform (.notify n) :: later → n.isOfSession →
    InSession (notifications before)
  /-- A stop is completed when the callbacks of the session have ended. -/
  finished : EndsInOrder past → ∀ seen p, .call seen .stop p ∈ past →
    p ∈ s.agenda.flatMap Effect.settled → ∀ job ∈ s.jobs, ∀ n, job.task = .notification n →
      n = .drain ∨ ∃ cause, n = .stopped cause

namespace Reached

theorem sessions_apart (h : Reached past s) : s.SessionsApart past := by
  have hturn {c : Core} {x : Signal} (ht : (c, x) ∈ turns past) :
      ∃ env, Handles c env x ∧ (c.connection.isSome ↔ c.phase.isConnected) := by
    obtain ⟨before, later, rfl, rfl⟩ := mem_turns.mp ht
    obtain ⟨u, v, hu, hs⟩ := h.of_append_cons
    exact hu.core_eq ▸ ⟨_, hu.handles hs, hu.isSome_connection_iff⟩
  refine ⟨fun hp => h.isClean ?_, fun hp => ?_, h.resume_of_stopped, fun c x ht => ?_,
    fun c x ht => ?_, fun c x ht n hn he => ?_, ?_, fun hi seen p hcall hp job hj n hn => ?_⟩
  · rcases hp with hp | hp <;> rw [hp] <;> rfl
  · exact h.coherent.sound.control.stops (by rw [hp]; rfl)
  · obtain ⟨env, hh, -⟩ := hturn ht
    exact hh.starts_session
  · obtain ⟨env, hh, -⟩ := hturn ht
    exact hh.ends_session
  · obtain ⟨env, hh, hk⟩ := hturn ht
    refine ⟨fun hp => ?_, hh.ne_stopped_of_session hk hn he⟩
    have hcleaned := hh.in_session hk hn he
    rw [hp] at hcleaned
    cases hcleaned
  · rintro before n later rfl hn
    exact h.notified_in_session hn
  · have hnone := h.submissions_of_stopped hi (h.stopped_of_settled hcall hp)
    have hjob : job.submission? = none := by
      rw [System.submissions, List.append_eq_nil_iff, List.filterMap_eq_nil_iff] at hnone
      exact hnone.1 job hj
    rw [Job.submission?, hn] at hjob
    split at hjob
    · cases hjob
    · cases n with
      | drain => exact .inl rfl
      | stopped cause => exact .inr ⟨cause, rfl⟩
      | _ => cases hjob

/-- A run in which the client is stopped while it looks for an endpoint, and the stop is about to
succeed. -/
def stopInOrder : List (Move Unit) :=
  stopWhileStarting ++ ([.take (.stop 1), .perform (.publish .stopping),
    .perform (.settle 0 (.error .clientStopped)), .answerLookup (.error .cancelled),
    .take (.endpointAnswered (.error .cancelled)), .perform (.publish .stopping),
    .perform .takeDrain, .perform .flush, .finish 0 (.ok ()), .finish 0 (.ok ()),
    .take .flushed, .perform (.publish .stopped)] : List (Move Unit))

set_option maxRecDepth 8000 in
theorem sessions_apart_stopInOrder : ∃ s, Reached stopInOrder s ∧ EndsInOrder stopInOrder ∧
    .call .starting .stop 1 ∈ stopInOrder ∧ 1 ∈ s.agenda.flatMap Effect.settled ∧
    s.SessionsApart stopInOrder := by
  have hr : ∃ s, (System.new "" 1).run stopInOrder = some s ∧
      s.agenda = [.settle 1 (.ok ()), .notify (.stopped none), .release] := ⟨_, rfl, rfl⟩
  obtain ⟨s, hs, ha⟩ := hr
  refine ⟨s, ⟨"", 1, hs⟩, ?_, by simp [stopInOrder, stopWhileStarting],
    by simp [ha, Effect.settled],
    sessions_apart ⟨"", 1, hs⟩⟩
  intro i result hm
  simp only [stopInOrder, stopWhileStarting, List.cons_append, List.nil_append, List.mem_cons,
    Move.finish.injEq, reduceCtorEq, false_or, List.not_mem_nil, or_false] at hm
  exact hm.elim And.left And.left

end Reached

end PubSub
