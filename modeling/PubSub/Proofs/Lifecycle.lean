import PubSub.Proofs.Milestones
import PubSub.Proofs.Restarts

/-! # What a client tells of its sessions

A client tells of the milestones that its transitions tell of, in their order,
and publishes the state of every phase that it enters before anything else is
done there. So what is told of is in order, and between two turns the published
state is that of the phase.
-/

namespace PubSub

namespace Action

theorem milestone_of_issues {a : Action} {e : Effect} (h : a.issues e)
    (ha : a.milestone? = none) : e.milestone? = none := by
  cases e with
  | notify n =>
    cases n with
    | drain | delivery | unsubscribed => rfl
    | _ =>
      cases a <;> cases h
      cases ha
  | _ => rfl

theorem not_issues_publish (a : Action) (st : ClientState) : a.issues (.publish st) = false := by
  cases a <;> rfl

end Action

namespace Turn

variable {m m' : Marks} {due env : Awaited → Nat} {t : Turn}

theorem milestones_perform (hc : Control m t.core.course due) {a : Action}
    (ha : m.act a = some m') (hp : a = .replayPendingWork → t.core.phase = .started)
    (closed : Turn → Turn) : (t.perform closed a).effects.filterMap Effect.milestone? =
      t.effects.filterMap Effect.milestone? ++ a.milestone?.toList := by
  cases hm : a.milestone? with
  | none =>
    obtain ⟨es, he, hk⟩ := issues_perform hc ha hp closed
    have hes : es.filterMap Effect.milestone? = [] :=
      List.filterMap_eq_nil_iff.mpr fun e h => Action.milestone_of_issues (hk e h) hm
    rw [he, List.filterMap_append, hes]
    rfl
  | some milestone =>
    cases a with
    | notifyStarting | notifyStarted | notifyRestarted | notifyRetrying | notifyStopped =>
      cases hm
      simp [perform, Effect.milestone?, Notification.milestone?]
    | _ => cases hm

section Actions

variable {actions : List Action} (hc : Control m t.core.course (t.due env))
  (ha : actions.foldlM Marks.act m = some m')
  (hp : .replayPendingWork ∈ actions → t.core.phase = .started) (closed : Turn → Turn)

include hc ha hp

theorem issues_performAll :
    Issues (fun e => ∃ a ∈ actions, a.issues e) t (actions.foldl (perform closed) t) := by
  induction actions generalizing m t with
  | nil => exact .refl t
  | cons a actions ih =>
    obtain ⟨m₁, ha₁, ha⟩ := Option.bind_eq_some_iff.mp ha
    have hpa : a = .replayPendingWork → t.core.phase = .started := by
      rintro rfl
      exact hp List.mem_cons_self
    have hi := issues_perform hc ha₁ hpa closed
    have his := ih (hc.perform ha₁ closed) ha fun h =>
      (hc.phase_perform ha₁ closed).trans (hp (List.mem_cons_of_mem _ h))
    exact (hi.imp fun e he => ⟨a, List.mem_cons_self, he⟩).trans
      (his.imp fun e ⟨b, hb, he⟩ => ⟨b, List.mem_cons_of_mem _ hb, he⟩)

theorem milestones_performAll :
    (actions.foldl (perform closed) t).effects.filterMap Effect.milestone? =
      t.effects.filterMap Effect.milestone? ++ actions.filterMap Action.milestone? := by
  induction actions generalizing m t with
  | nil => exact (List.append_nil _).symm
  | cons a actions ih =>
    obtain ⟨m₁, ha₁, ha⟩ := Option.bind_eq_some_iff.mp ha
    have hpa : a = .replayPendingWork → t.core.phase = .started := by
      rintro rfl
      exact hp List.mem_cons_self
    rw [List.foldl_cons, ih (hc.perform ha₁ closed) ha fun h =>
        (hc.phase_perform ha₁ closed).trans (hp (List.mem_cons_of_mem _ h)),
      milestones_perform hc ha₁ hpa, List.append_assoc, List.filterMap_cons]
    cases a.milestone? <;> rfl

end Actions

end Turn

open Turn

/-- A turn publishes the state if it enters a phase, and does so first of all. -/
def Turn.Publishes (p : Phase) (t : Turn) : Prop :=
  t.core.phase = p ∧ (∀ st, .publish st ∉ t.effects) ∨
    ∃ es, t.effects = .publish t.core.phase.view :: es ∧ ∀ st, .publish st ∉ es

namespace Handles

variable {c : Core} {env : Awaited → Nat} {x : Signal}

/-- A turn goes the way of the machine and tells of what the machine tells of. -/
theorem follows (h : Handles c env x) :
    (c.handle x).core.phase = c.phase.after (x.trigger? c).toList ∧
      (c.handle x).effects.filterMap Effect.milestone? =
        c.phase.milestones (x.trigger? c).toList ∧
      (c.handle x).Publishes c.phase := by
  cases h with
  | steady hx stays =>
    obtain ⟨es, he, hs⟩ := stays.effects
    rw [effects_begin, List.nil_append] at he
    have hp : (c.handle x).core.phase = c.phase := congrArg Course.phase stays.course
    rw [Signal.trigger?_of_isSteady hx, he]
    refine ⟨hp, List.filterMap_eq_nil_iff.mpr fun e hm => ?_, .inl ⟨hp, fun st hm => ?_⟩⟩
    · have hsteady := hs e hm
      cases e with
      | notify n =>
        cases n with
        | drain | delivery | unsubscribed => rfl
        | _ => cases hsteady
      | _ => rfl
    · rw [he] at hm
      cases hs _ hm
  | passed hx hnone spend f hf heq =>
    have hp : (c.handle x).core.phase = c.phase := by
      rcases hf with rfl | ⟨rfl, -⟩ <;> simp [heq]
    have he : (c.handle x).effects = [] := by simp [heq]
    have hnone : c.phase.after (x.trigger? c).toList = c.phase ∧
        c.phase.milestones (x.trigger? c).toList = [] := by
      cases ht : x.trigger? c with
      | none => exact ⟨rfl, rfl⟩
      | some trigger => exact Phase.of_transition_none (by simpa [ht] using hnone)
    rw [hnone.1, hnone.2]
    exact ⟨hp, by rw [he]; rfl, .inl ⟨hp, by simp [he]⟩⟩
  | @fires trigger next actions m m' hx ht hn hm hc ha hle heq =>
    have hstarted : .replayPendingWork ∈ actions → (c.entering x next).core.phase = .started :=
      Phase.next_of_replayPendingWork hn
    have hp : (c.handle x).core.phase = next := by
      rw [heq, (hc.performAll ha fireClosed).2]
      rfl
    obtain ⟨hnext, hmilestones⟩ := Phase.of_transition_some hn
    rw [ht, Option.toList_some, hnext, hmilestones]
    refine ⟨hp, ?_, .inr ?_⟩
    · rw [heq, milestones_performAll hc ha hstarted]
      rfl
    · obtain ⟨es, he, hk⟩ := issues_performAll hc ha hstarted fireClosed
      refine ⟨es, by rw [hp, heq, he]; rfl, fun st hmem => ?_⟩
      obtain ⟨a, -, hi⟩ := hk _ hmem
      simp [Action.not_issues_publish] at hi

end Handles

variable {ℓ : Type} {s s' : System ℓ} {past before later : List (Move ℓ)}

/-- The triggers that have fired in a run, with those that have no meaning where they fired. -/
def fired (past : List (Move ℓ)) : List Trigger :=
  (turns past).filterMap fun turn => turn.2.trigger? turn.1

theorem fired_take (past : List (Move ℓ)) (x : Signal) :
    fired (past ++ [Move.take x]) = fired past ++ (x.trigger? (Core.after past)).toList := by
  rw [fired, turns_take, List.filterMap_append]
  cases h : x.trigger? (Core.after past) <;> simp [fired, h]

theorem fired_of_ne_take (past : List (Move ℓ)) {m : Move ℓ} (hm : ∀ x, m ≠ .take x) :
    fired (past ++ [m]) = fired past := by
  rw [fired, turns_of_ne_take _ hm]
  rfl

theorem Client.state_perform (c : Client ℓ) {e : Effect} (he : ∀ st, e ≠ .publish st) :
    (c.perform e).2.state = c.state := by
  have hsettle (p : PromiseId) (result : Outcome) : (c.settle p result).2.state = c.state := by
    unfold settle
    split <;> rfl
  cases e with
  | publish st => exact absurd rfl (he st)
  | settle p result => exact hsettle p result
  | finishSend p result => exact hsettle p result
  | _ => rfl

namespace System

theorem state_step {m : Move ℓ} (h : s.step m = some s') (hm : ∀ st, m ≠ .perform (.publish st)) :
    s'.client.state = s.client.state := by
  cases step_eq_some.mp h with
  | perform => exact Client.state_perform _ fun st he => hm st (congrArg Move.perform he)
  | _ => rfl

/-- The state of the phase is published, or it is the next thing that is. -/
def Shown (s : System ℓ) : Prop :=
  s.client.state = s.client.core.phase.view ∧ (∀ st, .publish st ∉ s.agenda) ∨
    ∃ rest, s.agenda = .publish s.client.core.phase.view :: rest ∧ ∀ st, .publish st ∉ rest

structure Lifecycle (past : List (Move ℓ)) (s : System ℓ) : Prop where
  /-- Whatever triggers fire from the beginning on, what they tell of is in order. -/
  machine : ∀ triggers, Milestone.InOrder (Phase.stopped.milestones triggers)
  /-- The client goes the way of the machine, and the turns so far tell of what it tells of. -/
  phase : s.client.core.phase = Phase.stopped.after (fired past)
  follows : (s.issued past).filterMap Effect.milestone? = Phase.stopped.milestones (fired past)
  /-- So what the application has been told of is in order. -/
  told : Milestone.InOrder ((past.flatMap Move.performed).filterMap Effect.milestone?)
  /-- When a signal has been handled, the published state is that of the phase. -/
  published : s.AtRest → s.client.state = s.client.core.phase.view
  /-- No other state is ever published. -/
  publishes : ∀ before st later, past = before ++ Move.perform (.publish st) :: later →
    st = (Core.after before).phase.view

end System

namespace Reached

theorem shown (h : Reached past s) : s.Shown := by
  refine h.induction (P := fun _ s => s.Shown) (fun _ _ => .inl ⟨rfl, by simp [System.new]⟩) ?_
  intro past s m s' hr ih hs
  cases m with
  | take x =>
    have hh := hr.handles hs
    obtain ⟨ha, rest, -, rfl⟩ := System.step_take hs
    obtain ⟨-, -, ⟨hp, hno⟩ | hpublish⟩ := hh.follows
    · rcases ih with ⟨hstate, -⟩ | ⟨rest, hrest, -⟩
      · exact .inl ⟨hstate.trans (congrArg Phase.view hp.symm), hno⟩
      · simp [ha] at hrest
    · exact .inr hpublish
  | perform e =>
    obtain ⟨rest, ha, rfl⟩ := System.step_perform hs
    have hcore : (s.perform e rest).client.core = s.client.core := Client.core_perform ..
    rcases ih with ⟨hstate, hno⟩ | ⟨rest', ha', hno⟩
    · rw [ha] at hno
      refine .inl ⟨?_, fun st hm => hno st (List.mem_cons_of_mem _ hm)⟩
      have he : ∀ st, e ≠ .publish st := fun st he => hno st (he ▸ List.mem_cons_self)
      rw [hcore, ← hstate]
      exact Client.state_perform _ he
    · obtain ⟨rfl, rfl⟩ := List.cons_eq_cons.mp (ha.symm.trans ha')
      exact .inl ⟨congrArg Phase.view (congrArg Core.phase hcore.symm), hno⟩
  | _ =>
    rw [System.Shown, System.state_step hs (by simp), System.core_step hs (by simp)]
    have ha : s.agenda = [] ++ s'.agenda := System.agenda_step hs (by simp)
    rw [List.nil_append] at ha
    rwa [← ha]

theorem follows (h : Reached past s) :
    s.client.core.phase = Phase.stopped.after (fired past) ∧
      (s.issued past).filterMap Effect.milestone? = Phase.stopped.milestones (fired past) := by
  refine h.turn_induction (P := fun past s =>
    s.client.core.phase = Phase.stopped.after (fired past) ∧
      (s.issued past).filterMap Effect.milestone? = Phase.stopped.milestones (fired past))
    (fun _ _ => ⟨rfl, rfl⟩) ?_ ?_
  · intro past s m s' hr ih hs hm
    rw [System.core_step hs hm, System.issued_step hs hm, fired_of_ne_take past hm]
    exact ih
  · intro past s x s' hr ⟨hphase, hmilestones⟩ hs
    obtain ⟨hp, he, -⟩ := (hr.handles hs).follows
    rw [System.core_take hs, System.issued_take hs, fired_take, ← hr.core_eq, Phase.after_append,
      Phase.milestones_append, ← hphase, List.filterMap_append, hmilestones, he]
    exact ⟨hp, rfl⟩

theorem lifecycle_kept (h : Reached past s) : s.Lifecycle past := by
  obtain ⟨hphase, hfollows⟩ := h.follows
  refine ⟨Phase.milestones_inOrder, hphase, hfollows, ?_, fun hrest => ?_, ?_⟩
  · have hbegin : Phase.stopped.admits .idle := rfl
    obtain ⟨st, hrun, -⟩ := Phase.admits_after hbegin (fired past)
    rw [← hfollows, System.issued, List.filterMap_append, Stage.run_append] at hrun
    obtain ⟨st, hst, -⟩ := Option.bind_eq_some_iff.mp hrun
    exact Stage.inOrder hst
  · rcases h.shown with ⟨hstate, -⟩ | ⟨rest, ha, -⟩
    · exact hstate
    · cases hrest.symm.trans ha
  · rintro before st later rfl
    obtain ⟨u, v, hu, hs⟩ := h.of_append_cons
    obtain ⟨rest, ha, -⟩ := System.step_perform hs
    rw [← hu.core_eq]
    rcases hu.shown with ⟨-, hno⟩ | ⟨rest', ha', -⟩
    · exact absurd (ha ▸ List.mem_cons_self) (hno st)
    · injection (List.cons_eq_cons.mp (ha.symm.trans ha')).1

set_option maxRecDepth 8000 in
theorem lifecycle_kept_renewNews : ∃ s, Reached renewNews s ∧
    (renewNews.flatMap Move.performed).filterMap Effect.milestone? =
      [.starting, .started, .retrying, .restarted] ∧ s.Lifecycle renewNews := by
  have hr : ∃ s, (System.new "" 1).run renewNews = some s := ⟨_, rfl⟩
  obtain ⟨s, hs⟩ := hr
  exact ⟨s, ⟨"", 1, hs⟩, rfl, lifecycle_kept ⟨"", 1, hs⟩⟩

end Reached

end PubSub
