import Mathlib.Data.Fintype.Option
import PubSub.Proofs.Attempts
import PubSub.Proofs.Lifecycle
import PubSub.Proofs.Standing

/-! # Sessions

A session begins with the turn in which a client leaves the stopped phase, and
it is over with the turn in which the client is stopped again. The application
is told of both, and whatever else it is told of a session comes in between.
When the session has been cleaned up, nothing of it is left in the core.
-/

namespace PubSub

open Turn

def Notification.isOfSession : Notification → Bool
  | started | restarted | retrying _ | delivery .. | unsubscribed .. => true
  | starting | stopped _ | drain => false

def Effect.notification? : Effect → Option Notification
  | notify n => some n
  | _ => none

theorem Effect.milestone?_eq (e : Effect) :
    e.milestone? = e.notification?.bind Notification.milestone? := by
  cases e <;> rfl

namespace Phase

/-- The session is over, or it only waits for callbacks. -/
def isCleaned (p : Phase) : Bool := p = stoppingFlush || p = stopped

theorem starting_mem_milestones (p : Phase) (trigger : Option Trigger) :
    .starting ∈ p.milestones trigger.toList ↔ p = stopped ∧ p.after trigger.toList ≠ stopped := by
  revert p trigger
  decide

theorem stopped_mem_milestones (p : Phase) (trigger : Option Trigger) :
    .stopped ∈ p.milestones trigger.toList ↔ p ≠ stopped ∧ p.after trigger.toList = stopped := by
  revert p trigger
  decide

theorem isCleaned_of_after (p : Phase) (trigger : Option Trigger)
    (h : p.after trigger.toList = stopped) : p.isCleaned := by
  revert p trigger
  decide

variable {p next : Phase} {trigger : Trigger} {actions : List Action}

/-- Once it is cleaned up, a session tells of nothing but its end. -/
theorem not_mem_of_isCleaned (h : p.transition trigger = some ⟨next, actions⟩)
    (hp : p.isCleaned) : ∀ a ∈ actions,
      a ∉ [.cleanup, .replayPendingWork, .notifyStarted, .notifyRestarted, .notifyRetrying] := by
  have hall : ∀ (p : Phase) (trigger : Trigger), ∀ n ∈ p.transition trigger, p.isCleaned →
      ∀ a ∈ n.actions, a ∉ [Action.cleanup, .replayPendingWork, .notifyStarted, .notifyRestarted,
        .notifyRetrying] := by decide
  exact hall _ _ _ h hp

end Phase

theorem Action.mem_of_issues {a : Action} {n : Notification} (hn : n.isOfSession)
    (h : a.issues (.notify n)) :
    a ∈ [.cleanup, .replayPendingWork, .notifyStarted, .notifyRestarted, .notifyRetrying] := by
  cases n with
  | starting | stopped | drain => cases hn
  | _ => cases a <;> first | (simp; done) | cases h

namespace Handles

variable {c : Core} {env : Awaited → Nat} {x : Signal} {n : Notification}

theorem mem_milestones (h : Handles c env x) (m : Milestone) :
    m ∈ c.phase.milestones (x.trigger? c).toList ↔
      ∃ n : Notification, n.milestone? = some m ∧ .notify n ∈ (c.handle x).effects := by
  rw [← h.follows.2.1, List.mem_filterMap]
  constructor
  · rintro ⟨e, he, hm⟩
    cases e with
    | notify n => exact ⟨n, hm, he⟩
    | _ => cases hm
  · rintro ⟨n, hm, he⟩
    exact ⟨_, he, hm⟩

theorem starts_session (h : Handles c env x) : .notify .starting ∈ (c.handle x).effects ↔
    c.phase = .stopped ∧ (c.handle x).core.phase ≠ .stopped := by
  rw [h.follows.1, ← Phase.starting_mem_milestones, h.mem_milestones]
  constructor
  · exact fun he => ⟨_, rfl, he⟩
  · rintro ⟨n, hn, he⟩
    cases n <;> cases hn
    exact he

theorem ends_session (h : Handles c env x) :
    (∃ cause, .notify (.stopped cause) ∈ (c.handle x).effects) ↔
      c.phase ≠ .stopped ∧ (c.handle x).core.phase = .stopped := by
  rw [h.follows.1, ← Phase.stopped_mem_milestones, h.mem_milestones]
  constructor
  · exact fun ⟨cause, he⟩ => ⟨_, rfl, he⟩
  · rintro ⟨n, hn, he⟩
    cases n <;> cases hn
    exact ⟨_, he⟩

/-- In its turn a signal tells of a session that is not cleaned up before. -/
theorem in_session (h : Handles c env x) (hk : c.connection.isSome ↔ c.phase.isConnected)
    (hn : n.isOfSession) (he : .notify n ∈ (c.handle x).effects) : c.phase.isCleaned = false := by
  rw [← Bool.not_eq_true]
  intro hcleaned
  rcases h.mem_effects he with ⟨hx, -⟩ | ⟨st, hst⟩ | ⟨a, t, hp, hi, -, -⟩
  · have hnone : c.connection = none := by
      rw [← Option.not_isSome_iff_eq_none, hk]
      revert hcleaned
      cases c.phase <;> decide
    have hsettled := (issues_handle_steady (t := begin c) hx hnone).mem he
    exact absurd rfl (hsettled.resolve_left (by simp))
  · cases hst
  · obtain ⟨trigger, next, before, after, -, hnext, -⟩ := hp
    exact Phase.not_mem_of_isCleaned hnext hcleaned a (by simp) (Action.mem_of_issues hn hi)

theorem ne_stopped_of_session (h : Handles c env x)
    (hk : c.connection.isSome ↔ c.phase.isConnected) (hn : n.isOfSession)
    (he : .notify n ∈ (c.handle x).effects) : (c.handle x).core.phase ≠ .stopped := by
  intro hstopped
  rw [h.follows.1] at hstopped
  have hcleaned := Phase.isCleaned_of_after _ _ hstopped
  rw [h.in_session hk hn he] at hcleaned
  cases hcleaned

end Handles

variable {ℓ : Type} {s : System ℓ} {past before later : List (Move ℓ)}

/-- What the application has been told, in the order in which the callbacks were submitted. -/
def notifications (past : List (Move ℓ)) : List Notification :=
  (past.flatMap Move.performed).filterMap Effect.notification?

theorem milestones_notifications (past : List (Move ℓ)) :
    (past.flatMap Move.performed).filterMap Effect.milestone? =
      (notifications past).filterMap Notification.milestone? := by
  rw [notifications, List.filterMap_filterMap]
  exact congrArg (List.filterMap · _) (funext Effect.milestone?_eq)

/-- The application has been told of a start, and neither of a stop nor of a start after it. -/
def InSession (told : List Notification) : Prop :=
  ∃ earlier since, told = earlier ++ .starting :: since ∧ .starting ∉ since ∧
    ∀ cause, .stopped cause ∉ since

theorem InSession.of_run {told : List Notification} {st : Stage}
    (h : Stage.idle.run (told.filterMap Notification.milestone?) = some st) (hst : st ≠ .idle) :
    InSession told := by
  obtain ⟨b, d, hw, hstart, hstop⟩ := Stage.exists_starting h hst
  obtain ⟨earlier, rest, rfl, -, hrest⟩ := List.filterMap_eq_append_iff.mp hw
  obtain ⟨skipped, n, since, rfl, -, hn, rfl⟩ := List.filterMap_eq_cons_iff.mp hrest
  have hnotin {n : Notification} {m : Milestone} (hn : n.milestone? = some m)
      (hm : m ∉ since.filterMap Notification.milestone?) : n ∉ since :=
    fun hmem => hm (List.mem_filterMap.mpr ⟨n, hmem, hn⟩)
  obtain rfl : n = .starting := by cases n <;> cases hn; rfl
  exact ⟨earlier ++ skipped, since, by simp, hnotin rfl hstart, fun cause => hnotin rfl hstop⟩

structure Core.IsClean (c : Core) : Prop where
  connection : c.connection = none
  timer : c.timer = none
  subscriptions : c.subscriptions = []
  outstanding : c.outstanding = []
  pendingWork : c.pendingWork = []
  confirmations : c.confirmations = []
  remakes : c.remakesOutstanding = 0

namespace Reached

theorem isClean (h : Reached past s) (hp : s.client.core.phase.isCleaned) :
    s.client.core.IsClean := by
  have hphase : s.client.core.phase = .stoppingFlush ∨ s.client.core.phase = .stopped := by
    simpa [Phase.isCleaned] using hp
  have htracking := h.coherent.sound.tracking
  have hrows : s.client.core.subscriptions = [] := by
    refine List.eq_nil_iff_forall_not_mem.mpr fun row hrow => ?_
    have hadmits := htracking.shape row hrow
    rcases hphase with hp | hp <;> rw [hp] at hadmits <;> exact hadmits
  obtain ⟨hwork, hout⟩ := htracking.idle (by rcases hphase with hp | hp <;> rw [hp] <;> rfl)
  refine ⟨?_, ?_, hrows, hout, hwork, ?_, ?_⟩
  · rw [← Option.not_isSome_iff_eq_none, h.isSome_connection_iff]
    rcases hphase with hp | hp <;> rw [hp] <;> exact nofun
  · rw [← Option.not_isSome_iff_eq_none]
    intro htimer
    have htimed := h.timed htimer
    rcases hphase with hp | hp <;> rw [hp] at htimed <;> cases htimed
  · have hstanding := h.tied.standing
    rcases hphase with hp | hp <;> rw [hp] at hstanding <;> exact hstanding
  · rw [htracking.renewals, hrows]
    rfl

/-- While a client is stopped, a start that waits is about to be resumed. -/
theorem resume_of_stopped (h : Reached past s) (hp : s.client.core.phase = .stopped)
    (hs : s.client.core.pendingStarts ≠ []) : .start none ∈ s.queue := by
  have hresume := h.coherent.sound.control.resume
  rw [hp, System.due_own s (.inl rfl)] at hresume
  have hone : (s.queue.flatMap Signal.awaited).count .resume = 1 := by
    simpa [Phase.marks, Phase.resume, Posting.Holds, Core.course, hs] using hresume
  obtain ⟨x, hx, hmem⟩ := List.mem_flatMap.mp (List.count_pos_iff.mp (hone ▸ Nat.one_pos))
  obtain rfl : x = .start none := by
    cases x with
    | start q => cases q <;> simp [Signal.awaited] at hmem ⊢
    | _ => simp [Signal.awaited] at hmem
  exact hx

theorem notified_in_session {n : Notification}
    (h : Reached (before ++ .perform (.notify n) :: later) s) (hn : n.isOfSession) :
    InSession (notifications before) := by
  obtain ⟨earlier, x, rest, more, u, v, rfl, hrest, hu, hx, he⟩ := h.of_perform
  have hh := hu.handles hx
  have hissues : .notify n ∈ (u.client.core.handle x).effects := by rw [he]; simp
  have hcleaned := hh.in_session hu.isSome_connection_iff hn hissues
  have hnext := hh.ne_stopped_of_session hu.isSome_connection_iff hn hissues
  -- The turn begins in a session.
  obtain ⟨hphase, hfollows⟩ := hu.follows
  have hbegin : Phase.stopped.admits .idle := rfl
  obtain ⟨st, hst, hadmits⟩ := Phase.admits_after hbegin (fired earlier)
  rw [← hfollows, System.issued, (System.step_take hx).1, List.append_nil] at hst
  rw [← hphase] at hadmits
  have hidle : st ≠ .idle := by
    rintro rfl
    have hp : u.client.core.phase = .stopped := of_decide_eq_true hadmits
    rw [hp] at hcleaned
    cases hcleaned
  -- Up to the notification no stop is told of.
  obtain ⟨-, hmilestones, -⟩ := hh.follows
  obtain ⟨st', hst', -⟩ := Phase.admits_after hadmits (x.trigger? u.client.core).toList
  rw [← hmilestones, he, List.filterMap_append, Stage.run_append] at hst'
  obtain ⟨st₁, hst₁, -⟩ := Option.bind_eq_some_iff.mp hst'
  have hstop : .stopped ∉ (rest.flatMap Move.performed).filterMap Effect.milestone? := by
    intro hm
    have hm : .stopped ∈ u.client.core.phase.milestones (x.trigger? u.client.core).toList := by
      rw [← hmilestones, he, List.filterMap_append]
      exact List.mem_append_left _ hm
    rw [hh.follows.1] at hnext
    exact hnext ((Phase.stopped_mem_milestones ..).mp hm).2
  refine InSession.of_run ?_ (Stage.ne_idle_of_run hst₁ hidle hstop)
  rw [← milestones_notifications, List.flatMap_append, List.flatMap_cons, List.filterMap_append,
    Stage.run_append, hst]
  exact hst₁

end Reached

end PubSub
