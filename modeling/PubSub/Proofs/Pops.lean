import Mathlib.Data.List.Find
import Mathlib.Data.Set.Card
import PubSub.Proofs.Entries
import PubSub.Script.Timer

/-! # Pop or cancel

Timers with promises of their own are scheduled, cancelled, and decided by
their tasks in any order, while time passes. A task that wakes up after its
delay, and after a cancellation, may look at either first. All the same each
promise takes one result: an error if the timer was cancelled while it had an
entry, or else success once its delay is over.
-/

namespace PubSub

inductive TimerMove where
  | schedule (n : Nat) (delay : Duration)
  | cancel (n : Nat)
  | advance (d : Duration)
  /-- The task of the timer has a turn. -/
  | wake (n : Nat) (first : TimerBranch)
  deriving DecidableEq, Repr

namespace TimerMove

def scheduled? : TimerMove → Option Nat
  | schedule n _ => some n
  | _ => none

def timer? : TimerMove → Option Nat
  | schedule n _ | cancel n | wake n _ => some n
  | advance _ => none

theorem scheduled?_ne {m : TimerMove} {n : Nat} (h : m.timer? ≠ some n) :
    m.scheduled? ≠ some n := by
  cases m <;> simp_all [scheduled?, timer?]

end TimerMove

namespace PromisedTimers

/-- A turn of the task of a timer; the promise takes what it decides. -/
def wake (t : PromisedTimers) (n : Nat) (first : TimerBranch) : PromisedTimers :=
  match t.service.task? n with
  | none => t
  | some u =>
    let (decided, service) := t.service.turnFrom first u.id
    { t with service := service }.completeAll decided.toList

def apply (t : PromisedTimers) : TimerMove → PromisedTimers
  | .schedule n delay => t.schedule n delay
  | .cancel n => t.cancel n
  | .advance d => t.advance d
  | .wake n first => t.wake n first

def promised (count : Nat) : PromisedTimers := ⟨.empty, List.replicate count false, []⟩

def run (count : Nat) (past : List TimerMove) : PromisedTimers :=
  past.foldl apply (promised count)

/-- The results that the promise of a timer has taken. -/
def results (t : PromisedTimers) (n : Nat) : List Outcome :=
  (t.fired.filter (·.1 = n)).map (·.2)

def verdict (u : TimerTask) : Outcome := if u.cancelled then .error .cancelled else .ok ()

section Wake

open TimerService

variable {t : PromisedTimers} {u : TimerTask} {n : Nat}

theorem complete_of_pending (hp : t.done.getD n true = false) (r : Outcome) :
    t.complete n r =
      (.ok (), { t with done := t.done.set n true, fired := t.fired ++ [(n, r)] }) := by
  rw [complete, hp]
  rfl

theorem wake_of_isRipe (h : t.service.IsSound) (hu : t.service.task? n = some u)
    (hp : t.done.getD n true = false) (hr : t.service.isRipe u) (first : TimerBranch) :
    t.wake n first = ⟨t.service.finish n, t.done.set n true, t.fired ++ [(n, verdict u)]⟩ := by
  obtain ⟨hmem, rfl⟩ := mem_of_task? hu
  rw [wake, hu]
  simp only [h.turnFrom_eq hmem, hr, if_true]
  have hpending : ({ t with service := t.service.finish u.timer } :
      PromisedTimers).done.getD u.timer true = false := hp
  exact congrArg Prod.snd (complete_of_pending hpending (verdict u))

theorem wake_of_not_isRipe (h : t.service.IsSound) (hu : t.service.task? n = some u)
    (hr : ¬ t.service.isRipe u) (first : TimerBranch) :
    t.wake n first = { t with service := t.service.start n } := by
  obtain ⟨hmem, rfl⟩ := mem_of_task? hu
  rw [wake, hu]
  simp only [h.turnFrom_eq hmem, hr]
  rfl

end Wake

theorem results_concat (t : PromisedTimers) (s : TimerService) (done : List Bool) (n m : Nat)
    (r : Outcome) : results ⟨s, done, t.fired ++ [(n, r)]⟩ m =
      t.results m ++ if m = n then [r] else [] := by
  by_cases h : m = n
  · simp [results, h]
  · simp [results, h, Ne.symm h]

theorem completeAll_withService (t : PromisedTimers) (s : TimerService)
    (rs : List (Nat × Outcome)) :
    { t with service := s }.completeAll rs = { t.completeAll rs with service := s } := by
  induction rs generalizing t with
  | nil => rfl
  | cons r rs ih =>
    have hcomplete : ({ t with service := s }.complete r.1 r.2).2 =
        { (t.complete r.1 r.2).2 with service := s } := by
      unfold complete
      split <;> rfl
    change ({ t with service := s }.complete r.1 r.2).2.completeAll rs = _
    rw [hcomplete, ih]
    rfl

theorem completeAll_service (t : PromisedTimers) (rs : List (Nat × Outcome)) :
    (t.completeAll rs).service = t.service := by
  have h : t.completeAll rs = { t.completeAll rs with service := t.service } :=
    completeAll_withService t t.service rs
  rw [h]

theorem fired_prefix_completeAll (t : PromisedTimers) (rs : List (Nat × Outcome)) :
    t.fired <+: (t.completeAll rs).fired := by
  induction rs generalizing t with
  | nil => exact List.prefix_rfl
  | cons r rs ih =>
    have hcomplete : t.fired <+: (t.complete r.1 r.2).2.fired := by
      unfold complete
      split
      · exact List.prefix_rfl
      · exact List.prefix_append ..
    exact hcomplete.trans (ih _)

/-- Results are never taken back. -/
theorem fired_prefix_foldl (t : PromisedTimers) (ms : List TimerMove) :
    t.fired <+: (ms.foldl apply t).fired := by
  induction ms generalizing t with
  | nil => exact List.prefix_rfl
  | cons m ms ih =>
    have happly : t.fired <+: (t.apply m).fired := by
      cases m with
      | wake n first =>
        simp only [apply, wake]
        split
        · exact List.prefix_rfl
        · rw [completeAll_withService]
          exact fired_prefix_completeAll ..
      | _ => exact List.prefix_rfl
    exact happly.trans (ih _)

section History

variable {count : Nat} {past before after : List TimerMove} {m : TimerMove} {n : Nat}
  {t : PromisedTimers} {u : TimerTask}

def scheduled (past : List TimerMove) : List Nat := past.filterMap TimerMove.scheduled?

/-- The timers that were scheduled are distinct, and there is a promise for each. -/
structure Distinct (count : Nat) (past : List TimerMove) : Prop where
  nodup : (scheduled past).Nodup
  below : ∀ n ∈ scheduled past, n < count

def now (count : Nat) (past : List TimerMove) : Nat := (run count past).service.now.nanos

/-- A cancellation has removed the entry of the timer. -/
def Withdrawn (count : Nat) (past : List TimerMove) (n : Nat) : Prop :=
  ∃ before after, past = before ++ .cancel n :: after ∧ (run count before).service.HasEntry n

/-- The delay has passed since the timer was scheduled. -/
def Elapsed (count : Nat) (past : List TimerMove) (n : Nat) : Prop :=
  ∃ before delay after, past = before ++ .schedule n delay :: after ∧
    now count before + delay.nanos ≤ now count past

/-- The delay has passed since some turn of the task of the timer. -/
def Overslept (count : Nat) (past : List TimerMove) (n : Nat) : Prop :=
  ∃ before first after delay, past = before ++ .wake n first :: after ∧
    .schedule n delay ∈ before ∧ now count before + delay.nanos ≤ now count past

theorem run_concat : run count (past ++ [m]) = (run count past).apply m :=
  List.foldl_concat ..

theorem cases_of_concat {α : Type} {as before after : List α} {a b : α}
    (h : as ++ [a] = before ++ b :: after) :
    (as = before ∧ a = b) ∨ ∃ after', as = before ++ b :: after' := by
  rcases List.eq_nil_or_concat' after with rfl | ⟨after, c, rfl⟩
  · exact .inl (List.append_singleton_inj.mp h)
  · rw [← List.cons_append, ← List.append_assoc, List.append_singleton_inj] at h
    exact .inr ⟨after, h.1⟩

theorem scheduled_concat : scheduled (past ++ [m]) = scheduled past ++ m.scheduled?.toList := by
  rw [scheduled, List.filterMap_append]
  cases h : m.scheduled? <;> simp [scheduled, h]

theorem now_apply : t.service.now.nanos ≤ (t.apply m).service.now.nanos := by
  cases m with
  | schedule n delay => exact Nat.le_refl _
  | cancel n =>
    simp only [apply, cancel, TimerService.cancel]
    split <;> exact Nat.le_refl _
  | advance d => exact Nat.le_add_right ..
  | wake n first =>
    simp only [apply, wake]
    split
    · exact Nat.le_refl _
    · rw [completeAll_service, TimerService.now_turnFrom]

theorem now_mono : now count before ≤ now count (before ++ after) := by
  induction after using List.reverseRecOn with
  | nil => rw [List.append_nil]
  | append_singleton after m ih =>
    rw [← List.append_assoc, now, now, run_concat]
    exact Nat.le_trans ih now_apply

theorem withdrawn_concat : Withdrawn count (past ++ [m]) n ↔
    Withdrawn count past n ∨ m = .cancel n ∧ (run count past).service.HasEntry n := by
  constructor
  · rintro ⟨before, after, h, he⟩
    rcases cases_of_concat h with ⟨rfl, rfl⟩ | ⟨after', rfl⟩
    · exact .inr ⟨rfl, he⟩
    · exact .inl ⟨before, after', rfl, he⟩
  · rintro (⟨before, after, rfl, he⟩ | ⟨rfl, he⟩)
    · exact ⟨before, after ++ [m], by simp, he⟩
    · exact ⟨past, [], rfl, he⟩

theorem withdrawn_concat_of_ne (hm : m ≠ .cancel n) :
    Withdrawn count (past ++ [m]) n ↔ Withdrawn count past n := by
  rw [withdrawn_concat, or_iff_left fun h => hm h.1]

theorem Elapsed.concat (h : Elapsed count past n) : Elapsed count (past ++ [m]) n := by
  obtain ⟨before, delay, after, rfl, hle⟩ := h
  exact ⟨before, delay, after ++ [m], by simp, Nat.le_trans hle now_mono⟩

theorem mem_scheduled_concat (hm : m.timer? ≠ some n) :
    n ∈ scheduled (past ++ [m]) ↔ n ∈ scheduled past := by
  simp [scheduled_concat, TimerMove.scheduled?_ne hm]

@[simp]
theorem scheduled_wake {first : TimerBranch} :
    scheduled (past ++ [.wake n first]) = scheduled past := by
  simp [scheduled_concat, TimerMove.scheduled?]

/-- What is known of the task of a timer that nobody has cancelled. -/
structure Waits (count : Nat) (past : List TimerMove) (n : Nat) (u : TimerTask) : Prop where
  /-- The wait ends no sooner than the delay after the timer was scheduled. -/
  since : ∃ before after, past = before ++ .schedule n u.delay :: after ∧
    ∀ d ∈ u.deadline, now count before + u.delay.nanos ≤ d.nanos
  delay : ∀ delay, .schedule n delay ∈ past → delay = u.delay
  /-- The wait ends no later than the delay after any turn. -/
  turned : ∀ before first after, past = before ++ .wake n first :: after →
    n ∈ scheduled before → ∃ d ∈ u.deadline, d.nanos ≤ now count before + u.delay.nanos
  soon : ∀ d ∈ u.deadline, d.nanos ≤ now count past + u.delay.nanos

namespace Waits

theorem new (hs : n ∉ scheduled past) (id : Nat) (delay : Duration) :
    Waits count (past ++ [.schedule n delay]) n ⟨id, n, delay, none, false⟩ := by
  have hno (before after : List TimerMove) (delay : Duration) :
      past ≠ before ++ .schedule n delay :: after := by
    rintro rfl
    exact hs (List.mem_filterMap.mpr ⟨.schedule n delay, by simp, rfl⟩)
  constructor
  case since => exact ⟨past, [], rfl, nofun⟩
  case delay =>
    intro delay' hm
    rcases List.mem_append.mp hm with hm | hm
    · obtain ⟨before, after, h⟩ := List.append_of_mem hm
      exact absurd h (hno before after delay')
    · exact (TimerMove.schedule.inj (List.mem_singleton.mp hm)).2
  case turned =>
    intro before first after h hm
    rcases cases_of_concat h with ⟨-, h⟩ | ⟨after', rfl⟩
    · cases h
    · exact absurd (by simp [scheduled] at hm ⊢; exact .inl hm) hs
  case soon => exact nofun

theorem concat (h : Waits count past n u) (hm : m.timer? ≠ some n) :
    Waits count (past ++ [m]) n u := by
  constructor
  case since =>
    obtain ⟨before, after, rfl, hd⟩ := h.since
    exact ⟨before, after ++ [m], by simp, hd⟩
  case delay =>
    intro delay hmem
    rcases List.mem_append.mp hmem with hmem | hmem
    · exact h.delay delay hmem
    · rw [← List.mem_singleton.mp hmem] at hm
      exact absurd rfl hm
  case turned =>
    intro before first after hpast hs
    rcases cases_of_concat hpast with ⟨-, rfl⟩ | ⟨after', hpast⟩
    · exact absurd rfl hm
    · exact h.turned before first after' hpast hs
  case soon => exact fun d hd => Nat.le_trans (h.soon d hd) (Nat.add_le_add_right now_mono _)

theorem start (h : Waits count past n u) (first : TimerBranch) :
    Waits count (past ++ [.wake n first]) n ((run count past).service.started u) := by
  have hsoon : ∀ d ∈ ((run count past).service.started u).deadline,
      d.nanos ≤ now count past + u.delay.nanos := by
    intro d hd
    cases hu : u.deadline with
    | none =>
      rw [TimerService.started, hu] at hd
      exact Nat.le_of_eq (congrArg Duration.nanos (Option.some.inj hd)).symm
    | some e =>
      rw [TimerService.started, hu] at hd
      exact h.soon d (hu.trans hd)
  constructor
  case since =>
    obtain ⟨before, after, hpast, hsince⟩ := h.since
    refine ⟨before, after ++ [.wake n first], by simp [hpast, TimerService.started], ?_⟩
    intro d hd
    cases hu : u.deadline with
    | none =>
      rw [TimerService.started, hu] at hd
      rw [← Option.some.inj hd]
      exact Nat.add_le_add_right (hpast ▸ now_mono) _
    | some e =>
      rw [TimerService.started, hu] at hd
      exact hsince d (hu.trans hd)
  case delay =>
    intro delay hmem
    exact h.delay delay (by simpa using hmem)
  case turned =>
    intro before first' after hpast hs
    rcases cases_of_concat hpast with ⟨rfl, -⟩ | ⟨after', hpast⟩
    · exact ⟨_, rfl, hsoon _ rfl⟩
    · obtain ⟨d, hd, hle⟩ := h.turned before first' after' hpast hs
      exact ⟨d, by rw [TimerService.started, hd]; rfl, hle⟩
  case soon => exact fun d hd => Nat.le_trans (hsoon d hd) (Nat.add_le_add_right now_mono _)

theorem isDue_of_overslept (h : Waits count past n u) (ho : Overslept count past n) :
    (run count past).service.isDue ((run count past).service.started u) := by
  obtain ⟨before, first, after, delay, hpast, hmem, hle⟩ := ho
  have hdelay : delay = u.delay := h.delay delay (by simp [hpast, hmem])
  have hs : n ∈ scheduled before := List.mem_filterMap.mpr ⟨_, hmem, rfl⟩
  obtain ⟨d, hd, hsoon⟩ := h.turned before first after hpast hs
  rw [TimerService.isDue, TimerService.started, hd, Option.any_some, decide_eq_true_eq]
  exact Nat.le_trans hsoon (hdelay ▸ hle)

theorem elapsed_of_isDue (h : Waits count past n u)
    (hdue : (run count past).service.isDue ((run count past).service.started u)) :
    Elapsed count past n := by
  obtain ⟨before, after, hpast, hsince⟩ := h.since
  refine ⟨before, u.delay, after, hpast, ?_⟩
  rw [TimerService.isDue, TimerService.started, Option.any_some, decide_eq_true_eq] at hdue
  cases hu : u.deadline with
  | none =>
    rw [hu] at hdue
    exact Nat.le_trans (Nat.add_le_add_right (hpast ▸ now_mono) _) hdue
  | some d =>
    rw [hu] at hdue
    exact Nat.le_trans (hsince d hu) hdue

end Waits

/-- How things stand with a timer: its task, and what its promise has taken. -/
inductive Fate (count : Nat) (past : List TimerMove) (n : Nat) :
    Option TimerTask → List Outcome → Prop
  | fresh (hs : n ∉ scheduled past) (hw : ¬ Withdrawn count past n) : Fate count past n none []
  | waiting {u : TimerTask} (hs : n ∈ scheduled past) (hw : ¬ Withdrawn count past n)
      (hc : u.cancelled = false) (hu : Waits count past n u) : Fate count past n (some u) []
  | withdrawn {u : TimerTask} (hs : n ∈ scheduled past) (hw : Withdrawn count past n)
      (hc : u.cancelled = true) : Fate count past n (some u) []
  | popped (hs : n ∈ scheduled past) (hw : ¬ Withdrawn count past n)
      (he : Elapsed count past n) : Fate count past n none [.ok ()]
  | ended (hs : n ∈ scheduled past) (hw : Withdrawn count past n) :
      Fate count past n none [.error .cancelled]

namespace Fate

variable {o : Option TimerTask} {rs : List Outcome}

theorem of_task (h : Fate count past n (some u) rs) : n ∈ scheduled past ∧ rs = [] ∧
    (u.cancelled = true ↔ Withdrawn count past n) ∧
      (u.cancelled = false → Waits count past n u) := by
  cases h with
  | waiting hs hw hc hu => exact ⟨hs, rfl, by simp [hc, hw], fun _ => hu⟩
  | withdrawn hs hw hc => exact ⟨hs, rfl, by simp [hc, hw], by simp [hc]⟩

theorem of_not_scheduled (h : Fate count past n o rs) (hs : n ∉ scheduled past) :
    o = none ∧ rs = [] ∧ ¬ Withdrawn count past n := by
  cases h with
  | fresh _ hw => exact ⟨rfl, rfl, hw⟩
  | waiting hs' => exact absurd hs' hs
  | withdrawn hs' => exact absurd hs' hs
  | popped hs' => exact absurd hs' hs
  | ended hs' => exact absurd hs' hs

theorem length_le (h : Fate count past n o rs) : rs.length ≤ 1 := by
  cases h <;> simp

theorem length_eq_one (h : Fate count past n none rs) (hs : n ∈ scheduled past) :
    rs.length = 1 := by
  cases h with
  | fresh hs' => exact absurd hs hs'
  | popped => rfl
  | ended => rfl

theorem exists_task (h : Fate count past n o []) (hs : n ∈ scheduled past) : ∃ u, o = some u := by
  cases h with
  | fresh hs' => exact absurd hs hs'
  | waiting => exact ⟨_, rfl⟩
  | withdrawn => exact ⟨_, rfl⟩

theorem outcome (h : Fate count past n o rs) {r : Outcome} (hr : r ∈ rs) :
    n ∈ scheduled past ∧ (Withdrawn count past n ∧ r = .error .cancelled ∨
      ¬ Withdrawn count past n ∧ r = .ok () ∧ Elapsed count past n) := by
  cases h with
  | fresh => cases hr
  | waiting => cases hr
  | withdrawn => cases hr
  | popped hs hw he => exact ⟨hs, .inr ⟨hw, List.mem_singleton.mp hr, he⟩⟩
  | ended hs hw => exact ⟨hs, .inl ⟨hw, List.mem_singleton.mp hr⟩⟩

/-- A task that nobody has cancelled is that of a timer which is neither popped nor cancelled. -/
theorem isOpen (h : Fate count past n o rs) : (∃ u, o = some u ∧ u.cancelled = false) ↔
    n ∈ scheduled past ∧ .ok () ∉ rs ∧ ¬ Withdrawn count past n := by
  cases h <;> simp_all

theorem congr (h : Fate count past n o rs)
    (hs : n ∈ scheduled (past ++ [m]) ↔ n ∈ scheduled past)
    (hw : Withdrawn count (past ++ [m]) n ↔ Withdrawn count past n)
    (hu : ∀ u ∈ o, Waits count past n u → Waits count (past ++ [m]) n u) :
    Fate count (past ++ [m]) n o rs := by
  cases h with
  | fresh hs' hw' => exact .fresh (hs.not.mpr hs') (hw.not.mpr hw')
  | waiting hs' hw' hc hu' => exact .waiting (hs.mpr hs') (hw.not.mpr hw') hc (hu _ rfl hu')
  | withdrawn hs' hw' hc => exact .withdrawn (hs.mpr hs') (hw.mpr hw') hc
  | popped hs' hw' he => exact .popped (hs.mpr hs') (hw.not.mpr hw') he.concat
  | ended hs' hw' => exact .ended (hs.mpr hs') (hw.mpr hw')

/-- What happens to other timers leaves it as it is. -/
theorem concat (h : Fate count past n o rs) (hm : m.timer? ≠ some n) :
    Fate count (past ++ [m]) n o rs := by
  refine h.congr (mem_scheduled_concat hm) (withdrawn_concat_of_ne ?_) fun _ _ hu => hu.concat hm
  rintro rfl
  exact hm rfl

end Fate

structure Kept (count : Nat) (past : List TimerMove) (t : PromisedTimers) : Prop where
  sound : t.service.IsSound
  done : ∀ n < count, t.done[n]? = some !(t.results n).isEmpty
  fate : ∀ n, Fate count past n (t.service.task? n) (t.results n)

namespace Kept

open TimerService

theorem pending (h : Kept count past t) (hd : Distinct count past)
    (hu : t.service.task? n = some u) : t.done.getD n true = false := by
  have hfate := h.fate n
  rw [hu] at hfate
  obtain ⟨hs, hrs, -⟩ := hfate.of_task
  rw [List.getD_eq_getElem?_getD, h.done n (hd.below n hs), hrs]
  rfl

theorem schedule (h : Kept count past t) {delay : Duration}
    (hd : Distinct count (past ++ [.schedule n delay])) :
    Kept count (past ++ [.schedule n delay]) (t.schedule n delay) := by
  have hscheduled : scheduled (past ++ [.schedule n delay]) = scheduled past ++ [n] :=
    scheduled_concat
  have hs : n ∉ scheduled past := by
    have hnodup := hd.nodup
    rw [hscheduled] at hnodup
    exact fun hn => (List.nodup_append.mp hnodup).2.2 n hn n (List.mem_singleton.mpr rfl) rfl
  obtain ⟨htask, hresults, hw⟩ := (h.fate n).of_not_scheduled hs
  constructor
  case sound => exact h.sound.schedule htask delay
  case done => exact h.done
  case fate =>
    intro n'
    change Fate _ _ _ ((t.service.schedule n delay).task? n') (t.results n')
    rw [task?_schedule htask]
    split
    · next hn =>
      subst hn
      rw [hresults]
      exact .waiting (by simp [hscheduled]) ((withdrawn_concat_of_ne (by simp)).not.mpr hw) rfl
        (.new hs _ _)
    · next hn => exact (h.fate n').concat fun hm => hn (Option.some.inj hm).symm

theorem cancel (h : Kept count past (run count past)) :
    Kept count (past ++ [.cancel n]) ((run count past).cancel n) := by
  constructor
  case sound => exact h.sound.cancel n
  case done => exact h.done
  case fate =>
    intro n'
    change Fate _ _ _ (((run count past).service.cancel n).task? n') ((run count past).results n')
    rw [h.sound.task?_cancel]
    have hfate := h.fate n'
    cases htask : (run count past).service.task? n' with
    | none =>
      rw [htask] at hfate
      refine hfate.congr (by simp [scheduled_concat, TimerMove.scheduled?]) ?_ nofun
      rw [withdrawn_concat, or_iff_left]
      rintro ⟨hm, he⟩
      rw [h.sound.hasEntry_iff, htask] at he
      simp at he
    | some u =>
      obtain ⟨-, hu⟩ := mem_of_task? htask
      rw [htask] at hfate
      by_cases hn : n' = n
      · subst hn
        -- Whether it was cancelled before or not, it is now.
        obtain ⟨hs, hrs, hc, -⟩ := hfate.of_task
        have hcancelled : withdraw n' u = { u with cancelled := true } := if_pos hu
        rw [Option.map_some, hcancelled, hrs]
        refine .withdrawn (by simpa [scheduled_concat] using .inl hs) ?_ rfl
        rw [withdrawn_concat, h.sound.hasEntry_iff, ← hc]
        cases hu : u.cancelled with
        | false => exact .inr ⟨rfl, u, htask, hu⟩
        | true => exact .inl rfl
      · have hsame : withdraw n u = u := if_neg fun h => hn (hu.symm.trans h)
        rw [Option.map_some, hsame]
        exact hfate.concat fun hm => hn (Option.some.inj hm).symm

theorem advance (h : Kept count past t) (d : Duration) :
    Kept count (past ++ [.advance d]) (t.advance d) where
  sound := ⟨h.sound.ids, h.sound.timers, h.sound.below, h.sound.entries⟩
  done := h.done
  fate n := (h.fate n).concat nofun

theorem start (h : Kept count past (run count past)) (first : TimerBranch)
    (hu : (run count past).service.task? n = some u)
    (hr : ¬ (run count past).service.isRipe u) :
    Kept count (past ++ [.wake n first])
      { run count past with service := (run count past).service.start n } := by
  rw [isRipe, Bool.or_eq_true, not_or, Bool.not_eq_true] at hr
  constructor
  case sound => exact h.sound.start n
  case done => exact h.done
  case fate =>
    intro n'
    change Fate _ _ _ (((run count past).service.start n).task? n') ((run count past).results n')
    rw [task?_start]
    split
    · next hn =>
      subst hn
      have hfate := h.fate n'
      rw [hu] at hfate ⊢
      obtain ⟨hs, hrs, hc, hwaits⟩ := hfate.of_task
      rw [hrs]
      have hw : ¬ Withdrawn count past n' := by simp [← hc, hr.1]
      exact .waiting (scheduled_wake.symm ▸ hs) ((withdrawn_concat_of_ne (by simp)).not.mpr hw) hr.1
        ((hwaits hr.1).start first)
    · next hn => exact (h.fate n').concat fun hm => hn (Option.some.inj hm).symm

theorem finish (h : Kept count past (run count past)) (first : TimerBranch)
    (hu : (run count past).service.task? n = some u) (hr : (run count past).service.isRipe u) :
    Kept count (past ++ [.wake n first])
      ⟨(run count past).service.finish n, (run count past).done.set n true,
        (run count past).fired ++ [(n, verdict u)]⟩ := by
  constructor
  case sound => exact h.sound.finish n
  case done =>
    intro n' hlt
    have hdone := h.done n' hlt
    have hbound := (List.getElem?_eq_some_iff.mp hdone).1
    rw [results_concat, List.getElem?_set]
    by_cases hn : n' = n
    · simp [← hn, hbound]
    · simp [hn, Ne.symm hn, hdone]
  case fate =>
    intro n'
    change Fate _ _ _ (((run count past).service.finish n).task? n') _
    rw [task?_finish, results_concat]
    split
    · next hn =>
      subst hn
      have hfate := h.fate n'
      rw [hu] at hfate
      obtain ⟨hs, hrs, hc, hwaits⟩ := hfate.of_task
      have hs' : n' ∈ scheduled (past ++ [.wake n' first]) :=
        scheduled_wake.symm ▸ hs
      have hw : Withdrawn count (past ++ [.wake n' first]) n' ↔ u.cancelled = true :=
        (withdrawn_concat_of_ne (by simp)).trans hc.symm
      rw [hrs, List.nil_append, verdict]
      cases hcancelled : u.cancelled with
      | true => exact .ended hs' (hw.mpr hcancelled)
      | false =>
        refine .popped hs' (by simp [hw, hcancelled]) ?_
        rw [isRipe, hcancelled, Bool.false_or] at hr
        exact (hwaits hcancelled).elapsed_of_isDue hr |>.concat
    · next hn =>
      rw [List.append_nil]
      exact (h.fate n').concat fun hm => hn (Option.some.inj hm).symm

theorem wake (h : Kept count past (run count past)) (hd : Distinct count past)
    (first : TimerBranch) :
    Kept count (past ++ [.wake n first]) ((run count past).wake n first) := by
  cases hu : (run count past).service.task? n with
  | none =>
    have hsame : (run count past).wake n first = run count past := by
      rw [PromisedTimers.wake, hu]
    rw [hsame]
    refine ⟨h.sound, h.done, fun n' => (h.fate n').congr ?_ (withdrawn_concat_of_ne (by simp)) ?_⟩
    · rw [scheduled_wake]
    · intro u' hu' hwaits
      refine hwaits.concat fun hm => ?_
      obtain rfl := Option.some.inj hm
      rw [hu] at hu'
      cases hu'
  | some u =>
    by_cases hr : (run count past).service.isRipe u
    · rw [wake_of_isRipe h.sound hu (h.pending hd hu) hr]
      exact h.finish first hu hr
    · rw [wake_of_not_isRipe h.sound hu hr]
      exact h.start first hu hr

end Kept

theorem kept_run (hd : Distinct count past) : Kept count past (run count past) := by
  induction past using List.reverseRecOn with
  | nil =>
    refine ⟨⟨.nil, .nil, nofun, rfl⟩, fun n hn => ?_, fun n => .fresh (List.not_mem_nil) ?_⟩
    · simp [run, promised, results, hn]
    · rintro ⟨before, after, h, -⟩
      simp at h
  | append_singleton past m ih =>
    have hprefix : Distinct count past := by
      have hnodup := hd.nodup
      rw [scheduled_concat] at hnodup
      refine ⟨(List.nodup_append.mp hnodup).1, fun n hn => hd.below n ?_⟩
      rw [scheduled_concat]
      exact List.mem_append_left _ hn
    have h := ih hprefix
    rw [run_concat]
    cases m with
    | schedule n delay => exact h.schedule hd
    | cancel n => exact h.cancel
    | advance d => exact h.advance d
    | wake n first => exact h.wake hprefix first

end History

section Settle

variable {t : PromisedTimers} {s : TimerService} {us : List TimerTask} {u v : TimerTask}

/-- A turn leaves no task that was not there before. -/
theorem mem_of_mem_turn {id : Nat} (hv : v ∈ (s.turn id).2.tasks) :
    ∃ u ∈ s.tasks, u.id = v.id ∧ u.timer = v.timer := by
  unfold TimerService.turn at hv
  split at hv
  · exact ⟨v, hv, rfl, rfl⟩
  next t ht =>
  dsimp only at hv
  split at hv
  · exact ⟨v, List.mem_of_mem_filter hv, rfl, rfl⟩
  split at hv
  · exact ⟨v, List.mem_of_mem_filter hv, rfl, rfl⟩
  obtain ⟨u, hu, rfl⟩ := List.mem_map.mp hv
  split
  · exact ⟨t, List.mem_of_find?_eq_some ht, rfl, rfl⟩
  · exact ⟨u, hu, rfl, rfl⟩

/-- The tasks are told apart by their timers as by their numbers. -/
def Agree (us : List TimerTask) (s : TimerService) : Prop :=
  ∀ u ∈ us, ∀ v ∈ s.tasks, v.timer = u.timer ↔ v.id = u.id

theorem wake_token (h : ∀ v ∈ t.service.tasks, v.timer = u.timer ↔ v.id = u.id) :
    t.wake u.timer .token = { t with service := (t.service.turn u.id).2 }.completeAll
      (t.service.turn u.id).1.toList := by
  have hfind : t.service.task? u.timer = t.service.tasks.find? (·.id = u.id) :=
    List.find?_congr fun v hv => decide_eq_decide.mpr (h v hv)
  rw [wake, hfind]
  cases hv : t.service.tasks.find? (·.id = u.id) with
  | none =>
    rw [TimerService.turn, hv]
    rfl
  | some v =>
    have hid : v.id = u.id := by simpa using List.find?_some hv
    simp only [TimerService.turnFrom_token, hid]

theorem foldl_turn (h : Agree us s) (decided : List (Nat × Outcome)) (t : PromisedTimers) :
    let after := us.foldl (fun (decided, s) u =>
      let (result, s) := s.turn u.id
      (decided ++ result.toList, s)) (decided, s)
    { t with service := after.2 }.completeAll after.1 =
      (us.map fun u => TimerMove.wake u.timer .token).foldl apply
        ({ t with service := s }.completeAll decided) := by
  induction us generalizing s decided with
  | nil => rfl
  | cons u us ih =>
    have hagree : Agree us (s.turn u.id).2 := by
      intro u' hu' v hv
      obtain ⟨w, hw, hid, htimer⟩ := mem_of_mem_turn hv
      rw [← hid, ← htimer]
      exact h u' (List.mem_cons_of_mem _ hu') w hw
    have hstep : ({ t with service := s }.completeAll decided).wake u.timer .token =
        { t with service := (s.turn u.id).2 }.completeAll
          (decided ++ (s.turn u.id).1.toList) := by
      rw [wake_token, completeAll_withService t s]
      · change { t.completeAll decided with service := (s.turn u.id).2 }.completeAll
          (s.turn u.id).1.toList = _
        rw [← completeAll_withService t (s.turn u.id).2 decided]
        exact List.foldl_append.symm
      · rw [completeAll_service]
        exact h u List.mem_cons_self
    refine (ih hagree (decided ++ (s.turn u.id).1.toList)).trans ?_
    rw [← hstep]
    rfl

theorem settle_eq (h : t.service.IsSound) :
    t.settle = (t.service.tasks.map fun u => TimerMove.wake u.timer .token).foldl apply t :=
  foldl_turn (fun _ hu _ hv => (h.id_eq_iff hv hu).symm) [] t

end Settle

section Decided

variable {count : Nat} {past : List TimerMove} {n : Nat}

def Popped (count : Nat) (past : List TimerMove) (n : Nat) : Prop :=
  .ok () ∈ (run count past).results n

structure Decided (count : Nat) (past : List TimerMove) : Prop where
  /-- A promise has taken one result at most. -/
  once : ∀ n, ((run count past).results n).length ≤ 1
  done : ∀ n < count, (run count past).isDone n ↔ (run count past).results n ≠ []
  /-- No result comes without a timer, or before the delay is over if the timer was not cancelled
  while it had an entry. -/
  outcome : ∀ n, ∀ r ∈ (run count past).results n, n ∈ scheduled past ∧
    (Withdrawn count past n ∧ r = .error .cancelled ∨
      ¬ Withdrawn count past n ∧ r = .ok () ∧ Elapsed count past n)
  lasting : ∀ n more, (run count past).results n <+: (run count (past ++ more)).results n
  /-- Until there is a result the timer has a task, whose result the promise will take. -/
  pending : ∀ n ∈ scheduled past, (run count past).results n = [] →
    ∃ u, (run count past).service.task? n = some u
  accepted : ∀ u ∈ (run count past).service.tasks, ∀ r,
    ((run count past).complete u.timer r).1 = .ok ()
  /-- A turn after a cancellation is the last, and so is a turn once the delay has passed since
  another. -/
  answered : ∀ n ∈ scheduled past, Withdrawn count past n ∨ Overslept count past n →
    ∀ first, ((run count (past ++ [.wake n first])).results n).length = 1
  missed : ∀ n, ¬ (run count past).service.HasEntry n → (run count past).cancel n = run count past
  active : (run count past).service.active =
    {n | n ∈ scheduled past ∧ ¬ Popped count past n ∧ ¬ Withdrawn count past n}.ncard
  /-- The tasks run until they wait by turns of each of them. -/
  settled : (run count past).settle = run count
    (past ++ (run count past).service.tasks.map fun u => .wake u.timer .token)

theorem hasEntry_iff_open (h : Kept count past (run count past)) :
    (run count past).service.HasEntry n ↔
      n ∈ scheduled past ∧ ¬ Popped count past n ∧ ¬ Withdrawn count past n :=
  h.sound.hasEntry_iff.trans (h.fate n).isOpen

theorem active_eq_ncard (h : Kept count past (run count past)) :
    (run count past).service.active =
      {n | n ∈ scheduled past ∧ ¬ Popped count past n ∧ ¬ Withdrawn count past n}.ncard := by
  have hopen : {n | n ∈ scheduled past ∧ ¬ Popped count past n ∧ ¬ Withdrawn count past n} =
      ((run count past).service.entries.map (·.1)).toFinset := by
    ext n
    have hentry : (run count past).service.HasEntry n ↔
        n ∈ (run count past).service.entries.map (·.1) := by
      simp only [TimerService.HasEntry, List.lookup_isSome_iff, List.mem_map, beq_iff_eq]
      exact exists_congr fun e => and_congr_right fun _ => eq_comm
    rw [List.coe_toFinset]
    exact (hasEntry_iff_open h).symm.trans hentry
  have hnodup : ((run count past).service.entries.map (·.1)).Nodup := by
    rw [h.sound.entries, List.map_map]
    exact h.sound.timers.sublist (List.filter_sublist.map _)
  rw [hopen, Set.ncard_coe_finset, List.toFinset_card_of_nodup hnodup, List.length_map]
  rfl

theorem answered_of_kept (hd : Distinct count past) (hs : n ∈ scheduled past)
    (hr : Withdrawn count past n ∨ Overslept count past n) (first : TimerBranch) :
    ((run count (past ++ [.wake n first])).results n).length = 1 := by
  have h := kept_run hd
  rw [run_concat, apply]
  have hfate := h.fate n
  cases hu : (run count past).service.task? n with
  | none =>
    have hsame : (run count past).wake n first = run count past := by
      rw [PromisedTimers.wake, hu]
    rw [hu] at hfate
    rw [hsame]
    exact hfate.length_eq_one hs
  | some u =>
    rw [hu] at hfate
    obtain ⟨-, hrs, hc, hwaits⟩ := hfate.of_task
    have hripe : (run count past).service.isRipe u := by
      rw [TimerService.isRipe, Bool.or_eq_true]
      cases hcancelled : u.cancelled with
      | true => exact .inl rfl
      | false =>
        have hw : ¬ Withdrawn count past n := by simp [← hc, hcancelled]
        exact .inr ((hwaits hcancelled).isDue_of_overslept (hr.resolve_left hw))
    rw [wake_of_isRipe h.sound hu (h.pending hd hu) hripe, results_concat, hrs]
    simp

/-- The timers of distinct promises are decided once, whatever happens to them in any order. -/
theorem decided_once (hd : Distinct count past) : Decided count past := by
  have h := kept_run hd
  constructor
  case once => exact fun n => (h.fate n).length_le
  case done =>
    intro n hn
    rw [isDone, List.getD_eq_getElem?_getD, h.done n hn, Option.getD_some]
    simp
  case outcome => exact fun n r hr => (h.fate n).outcome hr
  case lasting =>
    intro n more
    have hfired : (run count past).fired <+: (run count (past ++ more)).fired := by
      rw [run, run, List.foldl_append]
      exact fired_prefix_foldl ..
    exact (hfired.filter _).map _
  case pending =>
    intro n hs hrs
    have hfate := h.fate n
    rw [hrs] at hfate
    exact hfate.exists_task hs
  case accepted =>
    intro u hu r
    rw [complete_of_pending (h.pending hd (h.sound.task?_of_mem hu))]
  case answered => exact fun n hs hr first => answered_of_kept hd hs hr first
  case missed =>
    intro n hn
    have hlookup : (run count past).service.entries.lookup n = none :=
      Option.not_isSome_iff_eq_none.mp hn
    rw [cancel, TimerService.cancel, hlookup]
  case active => exact active_eq_ncard h
  case settled => rw [settle_eq h.sound, run, run, List.foldl_append]

/-- A timer that is cancelled after its delay and before the turn of its task, and one that pops;
both of them are cancelled again, and so is one that is not known. -/
def lateCancel : List TimerMove :=
  [.schedule 1 ⟨5⟩, .schedule 0 ⟨5⟩, .wake 1 .token, .wake 0 .token, .advance ⟨5⟩, .cancel 0,
    .cancel 0, .wake 0 .deadline, .wake 1 .token, .cancel 1, .cancel 0, .cancel 7]

theorem decided_once_lateCancel :
    (run 2 lateCancel).fired = [(0, .error .cancelled), (1, .ok ())] ∧ Decided 2 lateCancel :=
  ⟨by decide, decided_once ⟨by decide, by decide⟩⟩

end Decided

end PromisedTimers

end PubSub
