import Mathlib.Data.List.DropRight
import PubSub.Proofs.Restarts

/-! # Why a client stops and retries

The core has room for one error. In a session that is not about to end there is
none, so a setback is remembered and told of in the same turn; the first event
that ends the session leaves its error, or the mark of the user's stop, and
either keeps everything later out until the session is over.
-/

namespace PubSub

namespace Signal

/-- The cause of an event that ends a session; the user's stop has none. -/
def ending? (c : Core) : Signal → Option (Option ClientError)
  | stop _ => some none
  | callbackFailed e => some (some e)
  | endpointAnswered (.error e) => some (some e)
  | opened k (.error e) => if c.isCurrent k ∧ e.isRetryable = false then some (some e) else none
  | disconnected k e => if c.isCurrent k ∧ e.isFatal then some (some e) else none
  | _ => none

/-- The cause of an event that a session survives; a service that asks to wait has none. -/
def setback? (c : Core) : Signal → Option (Option ClientError)
  | endpointAnswered (.ok (.retryAfter _)) => some none
  | opened k (.error e) => if c.isCurrent k ∧ e.isRetryable then some (some e) else none
  | disconnected k e => if c.isCurrent k ∧ e.isFatal = false then some (some e) else none
  | _ => none

end Signal

namespace Trigger

def ends : Trigger → Bool
  | stop | endpointFatal | openFatal | replaced => true
  | _ => false

def setsBack : Trigger → Bool
  | endpointRetry | openRetryable | networkError => true
  | _ => false

end Trigger

namespace Signal

variable {c : Core} {x : Signal} {trigger : Trigger}

theorem isSome_of_trigger (h : x.trigger? c = some trigger) :
    (x.ending? c).isSome = trigger.ends ∧ (x.setback? c).isSome = trigger.setsBack := by
  cases trigger?_eq_some_iff.mp h with
  | openRetryable k e hk he | openFatal k e hk he | networkError k e hk he | replaced k e hk he =>
    simp [ending?, setback?, hk, he, Trigger.ends, Trigger.setsBack]
  | _ => exact ⟨rfl, rfl⟩

/-- What comes too late neither ends a session nor sets it back. -/
theorem ending_of_trigger_none (h : x.trigger? c = none) : x.ending? c = none := by
  cases x with
  | endpointAnswered result => rcases result with e | (e | delay) <;> cases h
  | opened k result => cases result <;> simp_all [trigger?, ending?]
  | disconnected k e => simp_all [trigger?, ending?]
  | stop | callbackFailed => cases h
  | _ => rfl

/-- The error of the event is remembered unless there is one already, or the user's stop. -/
theorem lastError_prepare (h : x.trigger? c = some trigger) :
    (x.prepare c).lastError = if c.stoppedByUser || c.lastError.isSome then c.lastError
      else ((x.ending? c).or (x.setback? c)).join := by
  have hkept : c.lastError =
      if c.stoppedByUser || c.lastError.isSome then c.lastError else none := by
    cases c.lastError <;> simp
  cases trigger?_eq_some_iff.mp h with
  | callbackFailed e | endpointFatal e => simp [prepare, ending?, Core.recordError_eq]
  | openRetryable k e hk he | openFatal k e hk he | networkError k e hk he | replaced k e hk he =>
    simp [prepare, ending?, setback?, Core.recordError_eq, hk, he]
  | _ => exact hkept

theorem stoppedByUser_prepare :
    (x.prepare c).stoppedByUser = (c.stoppedByUser || x.ending? c = some none) := by
  cases x with
  | endpointAnswered result =>
    rcases result with e | (e | delay) <;> simp [prepare, ending?, Core.recordError_eq]
  | opened k result => cases result <;> simp [prepare, ending?, Core.recordError_eq]
  | _ => simp [prepare, ending?, Core.recordError_eq]

end Signal

namespace Action

def clearsError : Action → Bool
  | resetSession | notifyRetrying | notifyStopped => true
  | _ => false

end Action

namespace Phase

variable {p next : Phase} {trigger : Trigger} {actions before after : List Action} {a : Action}

/-- A session that is not about to end tells of every setback and forgets its error. -/
theorem clearing (h : p.transition trigger = some ⟨next, actions⟩) (hp : p ≠ stopped)
    (hn : next ≠ stopped) : actions.any Action.clearsError = (trigger.setsBack && !p.isStopping) ∧
      .resetSession ∉ actions ∧ next.isStopping = (p.isStopping || trigger.ends) := by
  have hall : ∀ (p : Phase) (trigger : Trigger), ∀ n ∈ p.transition trigger,
      p ≠ stopped → n.next ≠ stopped →
        n.actions.any Action.clearsError = (trigger.setsBack && !p.isStopping) ∧
        .resetSession ∉ n.actions ∧ n.next.isStopping = (p.isStopping || trigger.ends) := by decide
  exact hall _ _ _ h hp hn

/-- Only a start leads out of the stopped phase, and it forgets the last session. -/
theorem resetting (h : stopped.transition trigger = some ⟨next, actions⟩) (hn : next ≠ stopped) :
    next.isStopping = false ∧ .resetSession ∈ actions := by
  have hall : ∀ trigger : Trigger, ∀ n ∈ stopped.transition trigger, n.next ≠ stopped →
      n.next.isStopping = false ∧ .resetSession ∈ n.actions := by decide
  exact hall _ _ h hn

/-- What ends a session or sets it back is never passed over. -/
theorem transition_of_cause (hs : p.marks.spend trigger ≠ none)
    (ht : trigger.ends || trigger.setsBack) : p.transition trigger ≠ none := by
  revert p trigger
  decide

theorem errors_before (h : p.transition trigger = some ⟨next, before ++ a :: after⟩)
    (ha : a = .failPendingStarts ∨ a.clearsError) : before.any Action.clearsError = false := by
  have hall : ∀ (p : Phase) (trigger : Trigger), ∀ n ∈ p.transition trigger,
      n.actions.countP Action.clearsError ≤ 1 ∧
        (.failPendingStarts ∈ n.actions → n.actions.countP Action.clearsError = 0) := by decide
  obtain ⟨hle, hfail⟩ := hall _ _ _ h
  rw [List.countP_append, List.countP_cons] at hle hfail
  refine List.any_eq_false.mpr (List.countP_eq_zero.mp ?_)
  rcases ha with rfl | ha
  · have := hfail (by simp)
    omega
  · rw [if_pos ha] at hle
    omega

theorem ends_of_failPendingStarts (h : p.transition trigger = some ⟨next, actions⟩)
    (ha : .failPendingStarts ∈ actions) : p ≠ stopped ∧ trigger.ends := by
  have hall : ∀ (p : Phase) (trigger : Trigger), ∀ n ∈ p.transition trigger,
      .failPendingStarts ∈ n.actions → p ≠ stopped ∧ trigger.ends := by decide
  exact hall _ _ _ h ha

theorem setsBack_of_notifyRetrying (h : p.transition trigger = some ⟨next, actions⟩)
    (ha : .notifyRetrying ∈ actions) : p ≠ stopped ∧ p.isStopping = false ∧ trigger.setsBack := by
  have hall : ∀ (p : Phase) (trigger : Trigger), ∀ n ∈ p.transition trigger,
      .notifyRetrying ∈ n.actions →
        p ≠ stopped ∧ p.isStopping = false ∧ trigger.setsBack := by decide
  exact hall _ _ _ h ha

theorem flushed_of_notifyStopped (h : p.transition trigger = some ⟨next, actions⟩)
    (ha : .notifyStopped ∈ actions) : p = stoppingFlush ∧ trigger = .callbacksFlushed := by
  have hall : ∀ (p : Phase) (trigger : Trigger), ∀ n ∈ p.transition trigger,
      .notifyStopped ∈ n.actions → p = stoppingFlush ∧ trigger = .callbacksFlushed := by decide
  exact hall _ _ _ h ha

end Phase

namespace Course

theorem lastError_act (c : Course) (a : Action) :
    (c.act a).lastError = if a.clearsError then none else c.lastError := by
  cases a <;> rfl

theorem stoppedByUser_act (c : Course) (a : Action) :
    (c.act a).stoppedByUser = if a = .resetSession then false else c.stoppedByUser := by
  cases a <;> rfl

theorem lastError_foldl_act (c : Course) (actions : List Action) :
    (actions.foldl act c).lastError =
      if actions.any Action.clearsError then none else c.lastError := by
  induction actions generalizing c with
  | nil => rfl
  | cons a actions ih =>
    rw [List.foldl_cons, ih, lastError_act, List.any_cons]
    cases a.clearsError <;> simp

theorem stoppedByUser_foldl_act (c : Course) (actions : List Action) :
    (actions.foldl act c).stoppedByUser =
      if .resetSession ∈ actions then false else c.stoppedByUser := by
  induction actions generalizing c with
  | nil => rfl
  | cons a actions ih =>
    rw [List.foldl_cons, ih, stoppedByUser_act]
    by_cases hreset : a = .resetSession <;> simp [hreset, eq_comm]

end Course

namespace Turn

variable {m m' : Marks} {env : Awaited → Nat} {t : Turn}

theorem errors_performAll (hc : Control m t.core.course (t.due env)) {actions : List Action}
    (ha : actions.foldlM Marks.act m = some m') (closed : Turn → Turn) :
    (actions.foldl (perform closed) t).core.lastError =
        (if actions.any Action.clearsError then none else t.core.lastError) ∧
      (actions.foldl (perform closed) t).core.stoppedByUser =
        (if .resetSession ∈ actions then false else t.core.stoppedByUser) := by
  have hcourse := hc.course_performAll ha closed
  exact ⟨(congrArg Course.lastError hcourse).trans (Course.lastError_foldl_act ..),
    (congrArg Course.stoppedByUser hcourse).trans (Course.stoppedByUser_foldl_act ..)⟩

end Turn

open Turn

/-- What a core remembers of a session in which events have ended it, by their causes. -/
structure Core.Remembers (c : Core) (endings : List (Option ClientError)) : Prop where
  error : c.lastError = endings.head?.join
  user : endings.head? = some none → c.stoppedByUser
  fresh : endings = [] → c.stoppedByUser = false
  stopping : c.phase.isStopping = !endings.isEmpty

namespace Core.Remembers

variable {c : Core} {x : Signal} {trigger : Trigger} {es : List (Option ClientError)}

/-- The first event that ends a session is remembered, and what comes later is not. -/
theorem prepare (h : c.Remembers es) (ht : x.trigger? c = some trigger) :
    (x.prepare c).lastError =
      if es = [] then ((x.ending? c).or (x.setback? c)).join else es.head?.join := by
  rw [Signal.lastError_prepare ht]
  cases es with
  | nil => simp [h.fresh, h.error]
  | cons cause es =>
    cases cause with
    | none =>
      have huser := h.user rfl
      simp [huser, h.error]
    | some e => simp [h.error]

theorem congr {c' : Core} (h : c.Remembers es) (he : c'.lastError = es.head?.join)
    (hu : c'.stoppedByUser = c.stoppedByUser) (hp : c'.phase = c.phase) : c'.Remembers es where
  error := he
  user := hu ▸ h.user
  fresh := hu ▸ h.fresh
  stopping := hp ▸ h.stopping

end Core.Remembers

namespace Handles

variable {c : Core} {env : Awaited → Nat} {x : Signal} {t : Turn} {a : Action}
  {es : List (Option ClientError)}

theorem lastError_of_performs (h : Handles c env x) (hp : c.Performs x a t)
    (ha : a = .failPendingStarts ∨ a.clearsError) :
    t.core.lastError = (x.prepare c).lastError := by
  obtain ⟨trigger, next, before, after, ht, hn, rfl⟩ := hp
  obtain ⟨m, m', hm, hc, hact⟩ := h.control_of_transition ht hn
  rw [List.foldlM_append] at hact
  obtain ⟨m₁, hbefore, -⟩ := Option.bind_eq_some_iff.mp hact
  rw [(errors_performAll hc hbefore fireClosed).1, Phase.errors_before hn ha]
  rfl

/-- A transition of a session that is under way remembers the first event that ends it. -/
theorem remembers_of_fires (h : Handles c env x) {trigger : Trigger} {next : Phase}
    {actions : List Action} (ht : x.trigger? c = some trigger)
    (hn : c.phase.transition trigger = some ⟨next, actions⟩) (hr : c.Remembers es)
    (hphase : (c.handle x).core.phase = next) (hp : c.phase ≠ .stopped) (hnext : next ≠ .stopped) :
    (c.handle x).core.Remembers (es ++ (x.ending? c).toList) := by
  obtain ⟨m, m', -, hc, ha⟩ := h.control_of_transition ht hn
  obtain ⟨herror, huser⟩ := errors_performAll hc ha fireClosed
  obtain ⟨hclears, hreset, hstopping⟩ := Phase.clearing hn hp hnext
  obtain ⟨hends, hsets⟩ := Signal.isSome_of_trigger ht
  rw [← Core.handle_of_transition ht hn, hclears, Core.core_entering, hr.prepare ht] at herror
  rw [← Core.handle_of_transition ht hn, if_neg hreset, Core.core_entering,
    Signal.stoppedByUser_prepare] at huser
  rw [← hphase, hr.stopping] at hstopping
  cases es with
  | nil =>
    have hfresh := hr.fresh rfl
    cases hending : x.ending? c with
    | none =>
      have hno : trigger.ends = false := by simpa [hending] using hends.symm
      refine ⟨?_, by simp, by simp [huser, hfresh, hending], by simp [hstopping, hno]⟩
      cases hset : x.setback? c <;> simp_all [hr.stopping]
    | some cause =>
      have hyes : trigger.ends = true := by simpa [hending] using hends.symm
      have hno : trigger.setsBack = false := by cases trigger <;> first | rfl | cases hyes
      refine ⟨by simp [herror, hno, hending], ?_, by simp, by simp [hstopping, hyes]⟩
      intro hcause
      obtain rfl : cause = none := by simpa using hcause
      simp [huser, hending]
  | cons cause es =>
    have hstopped : c.phase.isStopping := hr.stopping
    refine ⟨by simp [herror, hstopped], ?_, by simp, by simp [hstopping]⟩
    intro hcause
    simp [huser, hr.user hcause]

theorem remembers (h : Handles c env x) (hr : c.phase ≠ .stopped → c.Remembers es)
    (hp : (c.handle x).core.phase ≠ .stopped) : (c.handle x).core.Remembers
      (if c.phase = .stopped then [] else es ++ (x.ending? c).toList) := by
  have hh := h
  cases h with
  | steady hx stays =>
    have hcourse := stays.course
    have hphase : (c.handle x).core.phase = c.phase := congrArg Course.phase hcourse
    rw [hphase] at hp
    have hnone : x.ending? c = none := by
      cases x with
      | work | sent | subscribed | unsubscribed | delivered | confirm | autoConfirm => rfl
      | _ => cases hx
    have he : (c.handle x).core.lastError = c.lastError := congrArg Course.lastError hcourse
    rw [if_neg hp, hnone, Option.toList_none, List.append_nil]
    exact (hr hp).congr (he.trans (hr hp).error) (congrArg Course.stoppedByUser hcourse) hphase
  | passed hx hnone spend f hf heq =>
    have hphase : (c.handle x).core.phase = c.phase := by
      rcases hf with rfl | ⟨rfl, -⟩ <;> simp [heq]
    rw [hphase] at hp
    cases ht : x.trigger? c with
    | none =>
      obtain rfl : f = id := hf.resolve_right fun ⟨_, h⟩ => by simp [ht] at h
      rw [if_neg hp, Signal.ending_of_trigger_none ht, Option.toList_none, List.append_nil, heq]
      exact hr hp
    | some trigger =>
      have hn : c.phase.transition trigger = none := by simpa [ht] using hnone
      have hcause : (trigger.ends || trigger.setsBack) = false := by
        by_contra hcause
        rw [Bool.not_eq_false] at hcause
        exact Phase.transition_of_cause (spend _ ht) hcause hn
      obtain ⟨hends, hsets⟩ := Bool.or_eq_false_iff.mp hcause
      obtain ⟨hending, hset⟩ := Signal.isSome_of_trigger ht
      rw [hends, Option.isSome_eq_false_iff, Option.isNone_iff_eq_none] at hending
      rw [hsets, Option.isSome_eq_false_iff, Option.isNone_iff_eq_none] at hset
      rw [if_neg hp, hending, Option.toList_none, List.append_nil]
      rcases hf with rfl | ⟨rfl, -⟩
      · rw [heq]
        exact hr hp
      · refine (hr hp).congr ?_ ?_ hphase
        · rw [heq, core_update, core_begin, (hr hp).prepare ht, hending, hset]
          split <;> simp_all
        · rw [heq, core_update, core_begin, Signal.stoppedByUser_prepare, hending]
          simp
  | @fires trigger next actions m m' hx ht hn hm hc ha hle heq =>
    have hphase : (c.handle x).core.phase = next := by
      rw [heq, (hc.performAll ha fireClosed).2]
      rfl
    rw [hphase] at hp
    split
    · rename_i hstopped
      -- A session begins, and nothing is left of the last one.
      obtain ⟨hstopping, hreset⟩ := Phase.resetting (hstopped ▸ hn) hp
      obtain ⟨herror, huser⟩ := errors_performAll hc ha fireClosed
      rw [← heq, List.any_eq_true.mpr ⟨_, hreset, rfl⟩] at herror
      rw [← heq, if_pos hreset] at huser
      exact ⟨herror, by simp, fun _ => huser, by rw [hphase, hstopping]; rfl⟩
    · rename_i hrunning
      exact hh.remembers_of_fires ht hn (hr hrunning) hphase hrunning hp

end Handles

variable {ℓ : Type} {s : System ℓ} {past before later : List (Move ℓ)}

/-- The turns since the client was stopped the last time. -/
def session (past : List (Move ℓ)) : List (Core × Signal) :=
  (turns past).rtakeWhile fun turn => turn.1.phase ≠ .stopped

def endings (past : List (Move ℓ)) : List (Option ClientError) :=
  (session past).filterMap fun turn => turn.2.ending? turn.1

theorem endings_take (past : List (Move ℓ)) (x : Signal) : endings (past ++ [Move.take x]) =
    if (Core.after past).phase = .stopped then []
    else endings past ++ (x.ending? (Core.after past)).toList := by
  rw [endings, session, turns_take, List.rtakeWhile_concat]
  by_cases hp : (Core.after past).phase = .stopped
  · simp [hp]
  · rw [if_pos (by simpa using hp), if_neg hp, List.filterMap_append]
    cases h : x.ending? (Core.after past) <;> simp [h, endings, session]

theorem endings_of_ne_take (past : List (Move ℓ)) {m : Move ℓ} (hm : ∀ x, m ≠ .take x) :
    endings (past ++ [m]) = endings past := by
  rw [endings, session, turns_of_ne_take _ hm]
  rfl

theorem endings_append (past : List (Move ℓ)) {rest : List (Move ℓ)} (hr : ∀ x, .take x ∉ rest) :
    endings (past ++ rest) = endings past := by
  induction rest using List.reverseRecOn with
  | nil => rw [List.append_nil]
  | append_singleton rest m ih =>
    rw [← List.append_assoc, endings_of_ne_take _ fun x hm => hr x (by simp [hm])]
    exact ih fun x hx => hr x (List.mem_append_left _ hx)

structure System.TellsCauses (past : List (Move ℓ)) (s : System ℓ) : Prop where
  /-- A stop is told of with the cause of the first event that ended the session. -/
  stopped : ∀ before cause later,
    past = before ++ Move.perform (.notify (.stopped cause)) :: later →
    (endings before).head? = some cause
  /-- A retry is told of with the cause of the setback that is being handled. -/
  retrying : ∀ before cause later,
    past = before ++ Move.perform (.notify (.retrying cause)) :: later →
    ∃ earlier x rest, before = earlier ++ Move.take x :: rest ∧ (∀ y, .take y ∉ rest) ∧
      x.setback? (Core.after earlier) = some cause
  /-- A start that fails with the session is told the error of that first event, if it has one. -/
  starts : ∀ earlier x later t, past = earlier ++ Move.take x :: later →
    (Core.after earlier).Performs x .failPendingStarts t →
      t.core.lastError = (endings (earlier ++ [Move.take x])).head?.join
  /-- So no error of another session is ever remembered while a session is under way. -/
  remembered : s.client.core.phase ≠ .stopped →
    s.client.core.lastError = (endings past).head?.join

namespace Reached

theorem remembers (h : Reached past s) (hp : s.client.core.phase ≠ .stopped) :
    s.client.core.Remembers (endings past) := by
  refine h.turn_induction (P := fun past s => s.client.core.phase ≠ .stopped →
    s.client.core.Remembers (endings past)) (fun _ _ h => absurd rfl h) ?_ ?_ hp
  · intro past s m s' hr ih hs hm
    rw [System.core_step hs hm, endings_of_ne_take _ hm]
    exact ih
  · intro past s x s' hr ih hs
    rw [System.core_take hs, endings_take, ← hr.core_eq]
    exact (hr.handles hs).remembers ih

section Turns

variable {u v : System ℓ} {x : Signal} {cause : Option ClientError}

theorem retrying (h : Reached before u) (hs : u.step (.take x) = some v)
    (he : .notify (.retrying cause) ∈ (u.client.core.handle x).effects) :
    x.setback? u.client.core = some cause := by
  have hh := h.handles hs
  rcases hh.mem_effects he with ⟨-, he⟩ | ⟨state, he⟩ | ⟨a, t, hp, ha, he, hnot⟩
  · cases he
  · cases he
  · obtain rfl : a = .notifyRetrying := by cases a <;> first | rfl | cases ha
    obtain rfl : cause = t.core.lastError := by
      simpa [Turn.perform, hnot] using he
    rw [hh.lastError_of_performs hp (.inr rfl)]
    obtain ⟨trigger, next, b, c, ht, hn, -⟩ := hp
    obtain ⟨hrunning, hstopping, hsets⟩ := Phase.setsBack_of_notifyRetrying hn (by simp)
    have hr := h.remembers hrunning
    have hnil : endings before = [] := by
      have hno := hr.stopping
      rw [hstopping] at hno
      simpa using hno
    obtain ⟨hending, hset⟩ := Signal.isSome_of_trigger ht
    have hends : trigger.ends = false := by cases trigger <;> first | rfl | cases hsets
    rw [hends, Option.isSome_eq_false_iff, Option.isNone_iff_eq_none] at hending
    rw [hsets] at hset
    obtain ⟨cause, hcause⟩ := Option.isSome_iff_exists.mp hset
    rw [hr.prepare ht, if_pos hnil, hending, hcause]
    rfl

theorem stopped (h : Reached before u) (hs : u.step (.take x) = some v)
    (he : .notify (.stopped cause) ∈ (u.client.core.handle x).effects) :
    (endings (before ++ [Move.take x])).head? = some cause := by
  have hh := h.handles hs
  rcases hh.mem_effects he with ⟨-, he⟩ | ⟨state, he⟩ | ⟨a, t, hp, ha, he, hnot⟩
  · cases he
  · cases he
  · obtain rfl : a = .notifyStopped := by cases a <;> first | rfl | cases ha
    obtain rfl : cause = t.core.lastError := by
      simpa [Turn.perform, hnot] using he
    rw [hh.lastError_of_performs hp (.inr rfl)]
    obtain ⟨trigger, next, b, c, ht, hn, -⟩ := hp
    obtain ⟨hphase, rfl⟩ := Phase.flushed_of_notifyStopped hn (by simp)
    have hrunning : u.client.core.phase ≠ .stopped := by simp [hphase]
    have hr := h.remembers hrunning
    have hcons : endings before ≠ [] := by
      have hyes := hr.stopping
      rw [hphase] at hyes
      intro hnil
      rw [hnil] at hyes
      cases hyes
    obtain ⟨first, es, hes⟩ := List.exists_cons_of_ne_nil hcons
    rw [hr.prepare ht, if_neg hcons, endings_take, ← h.core_eq, if_neg hrunning, hes]
    rfl

end Turns

theorem causes_told (h : Reached past s) : s.TellsCauses past := by
  refine ⟨?_, ?_, ?_, fun hp => (h.remembers hp).error⟩
  · rintro before cause later rfl
    obtain ⟨earlier, x, rest, more, u, v, rfl, hrest, hu, hs, he⟩ := h.of_perform
    have htold := hu.stopped hs (by rw [he]; exact List.mem_append_right _ List.mem_cons_self)
    rw [← List.singleton_append, ← List.append_assoc, endings_append _ hrest]
    exact htold
  · rintro before cause later rfl
    obtain ⟨earlier, x, rest, more, u, v, rfl, hrest, hu, hs, he⟩ := h.of_perform
    have htold := hu.retrying hs (by rw [he]; exact List.mem_append_right _ List.mem_cons_self)
    exact ⟨earlier, x, rest, rfl, hrest, hu.core_eq ▸ htold⟩
  · rintro earlier x later t rfl hp
    obtain ⟨u, v, hu, hs⟩ := h.of_append_cons
    have hh := hu.handles hs
    rw [← hu.core_eq] at hp
    rw [hh.lastError_of_performs hp (.inl rfl)]
    obtain ⟨trigger, next, b, c, ht, hn, -⟩ := hp
    obtain ⟨hrunning, hends⟩ := Phase.ends_of_failPendingStarts hn (by simp)
    rw [(hu.remembers hrunning).prepare ht, endings_take, ← hu.core_eq, if_neg hrunning]
    obtain ⟨hending, -⟩ := Signal.isSome_of_trigger ht
    rw [hends] at hending
    obtain ⟨cause, hcause⟩ := Option.isSome_iff_exists.mp hending
    rw [hcause]
    cases endings earlier <;> rfl

/-- A run in which a callback fails, the user stops the client, and the server ends the connection
for good, and all of that is handled before the session is over. -/
def failStopAndLose : List (Move Unit) :=
  let failure : ClientError := .callback "failed"
  let loss : ClientError := .replaced "by another"
  renewNews ++ ([.finish 0 (.error failure), .call .started .stop 2, .disconnect ⟨2⟩ loss,
    .take (.callbackFailed failure), .perform (.publish .stopping),
    .perform (.request (.disconnect ⟨2⟩)), .take (.stop 2), .perform (.publish .stopping),
    .take (.disconnected ⟨2⟩ loss), .perform (.publish .stopping),
    .perform (.notify (.unsubscribed 0 ⟨"news", none⟩ none)), .perform .takeDrain,
    .perform .flush, .finish 4 (.ok ()), .take .flushed, .perform (.publish .stopped),
    .perform (.settle 2 (.ok ())), .perform (.notify (.stopped (some failure)))] : List (Move Unit))

set_option maxRecDepth 8000 in
theorem causes_told_failStopAndLose : ∃ s, Reached failStopAndLose s ∧
    endings failStopAndLose =
      [some (.callback "failed"), none, some (.replaced "by another")] ∧
      s.TellsCauses failStopAndLose := by
  have hr : ∃ s, (System.new "" 1).run failStopAndLose = some s := ⟨_, rfl⟩
  obtain ⟨s, hs⟩ := hr
  exact ⟨s, ⟨"", 1, hs⟩, rfl, causes_told ⟨"", 1, hs⟩⟩

end Reached

end PubSub
