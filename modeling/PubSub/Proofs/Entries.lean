import Mathlib.Data.List.Nodup
import PubSub.TimerService

/-! # Entries and tasks

As long as the timers that are scheduled are distinct, there is an entry for
every task that is not cancelled, and for no other. So it makes no difference
whether a task that was cancelled, and whose delay is over, looks at its token
first or at its deadline.
-/

namespace PubSub

/-- What ends the waiting of a task; where both do, the task may find either first. -/
inductive TimerBranch where
  | token
  | deadline
  deriving DecidableEq, Repr

namespace TimerService

/-- A turn of a task that looks at one of its branches first. -/
def turnFrom (first : TimerBranch) (s : TimerService) (id : Nat) :
    Option (Nat × Outcome) × TimerService :=
  match s.tasks.find? (·.id = id) with
  | none => (none, s)
  | some t =>
    let t := s.started t
    if t.cancelled && (first = .token || !s.isDue t) then
      (some (t.timer, .error .cancelled), s.removeTask id)
    else if s.isDue t then
      let result : Outcome :=
        if (s.entries.lookup t.timer).isSome then .ok () else .error .cancelled
      (some (t.timer, result), (s.removeTask id).removeEntry t.timer)
    else
      (none, { s with tasks := s.tasks.map fun u => if u.id = id then t else u })

/-- The turns of the service look at the token first. -/
theorem turnFrom_token (s : TimerService) (id : Nat) : s.turnFrom .token id = s.turn id := by
  unfold turnFrom turn
  cases s.tasks.find? (·.id = id) with
  | none => rfl
  | some t => simp only [decide_true, Bool.true_or, Bool.and_true]

theorem now_turnFrom (first : TimerBranch) (s : TimerService) (id : Nat) :
    (s.turnFrom first id).2.now = s.now := by
  unfold turnFrom
  split
  · rfl
  · dsimp only
    split
    · rfl
    · split <;> rfl

def HasEntry (s : TimerService) (n : Nat) : Prop := (s.entries.lookup n).isSome

def task? (s : TimerService) (n : Nat) : Option TimerTask := s.tasks.find? (·.timer = n)

/-- A turn of the task would be its last. -/
def isRipe (s : TimerService) (t : TimerTask) : Bool := t.cancelled || s.isDue (s.started t)

def withdraw (n : Nat) (t : TimerTask) : TimerTask :=
  if t.timer = n then { t with cancelled := true } else t

/-- A turn after which the task of the timer goes on waiting. -/
def start (s : TimerService) (n : Nat) : TimerService :=
  { s with tasks := s.tasks.map fun t => if t.timer = n then s.started t else t }

def finish (s : TimerService) (n : Nat) : TimerService :=
  { s with
    entries := s.entries.filter (·.1 ≠ n)
    tasks := s.tasks.filter (·.timer ≠ n) }

/-- Tasks and timers are distinct, and there is an entry for every task that is not cancelled. -/
structure IsSound (s : TimerService) : Prop where
  ids : (s.tasks.map (·.id)).Nodup
  timers : (s.tasks.map (·.timer)).Nodup
  below : ∀ t ∈ s.tasks, t.id < s.scheduled
  entries : s.entries = (s.tasks.filter (!·.cancelled)).map fun t => (t.timer, t.id)

theorem find?_eq_some_of_nodup {α : Type} {f : α → Nat} {as : List α} (h : (as.map f).Nodup)
    {a : α} (ha : a ∈ as) : as.find? (f · = f a) = some a := by
  obtain ⟨b, hb⟩ : ∃ b, as.find? (f · = f a) = some b :=
    Option.isSome_iff_exists.mp (List.find?_isSome.mpr ⟨a, ha, decide_eq_true rfl⟩)
  have hf : f b = f a := by simpa using List.find?_some hb
  rw [hb, List.inj_on_of_nodup_map h (List.mem_of_find?_eq_some hb) ha hf]

variable {s : TimerService} {t u : TimerTask} {n m : Nat}

theorem mem_of_task? (h : s.task? n = some t) : t ∈ s.tasks ∧ t.timer = n :=
  ⟨List.mem_of_find?_eq_some h, by simpa using List.find?_some h⟩

theorem task?_eq_none_iff : s.task? n = none ↔ ∀ t ∈ s.tasks, t.timer ≠ n := by
  simp [task?]

theorem filter_entries (hn : ¬ s.HasEntry n) : s.entries.filter (·.1 ≠ n) = s.entries := by
  refine List.filter_eq_self.mpr fun e he => decide_eq_true ?_
  rintro rfl
  exact hn (List.lookup_isSome_iff.mpr ⟨e, he, beq_self_eq_true _⟩)

namespace IsSound

theorem eq_of_timer (h : s.IsSound) (ht : t ∈ s.tasks) (hu : u ∈ s.tasks) :
    t.timer = u.timer → t = u :=
  List.inj_on_of_nodup_map h.timers ht hu

theorem id_eq_iff (h : s.IsSound) (ht : t ∈ s.tasks) (hu : u ∈ s.tasks) :
    t.id = u.id ↔ t.timer = u.timer :=
  ⟨fun hi => congrArg _ (List.inj_on_of_nodup_map h.ids ht hu hi),
    fun hi => congrArg _ (h.eq_of_timer ht hu hi)⟩

theorem task?_of_mem (h : s.IsSound) (ht : t ∈ s.tasks) : s.task? t.timer = some t :=
  find?_eq_some_of_nodup h.timers ht

theorem hasEntry_iff (h : s.IsSound) :
    s.HasEntry n ↔ ∃ t, s.task? n = some t ∧ t.cancelled = false := by
  simp only [HasEntry, List.lookup_isSome_iff, h.entries, List.mem_map, List.mem_filter,
    Bool.not_eq_true', beq_iff_eq]
  constructor
  · rintro ⟨_, ⟨t, ⟨ht, hc⟩, rfl⟩, rfl⟩
    exact ⟨t, h.task?_of_mem ht, hc⟩
  · rintro ⟨t, ht, hc⟩
    obtain ⟨hmem, rfl⟩ := mem_of_task? ht
    exact ⟨_, ⟨t, ⟨hmem, hc⟩, rfl⟩, rfl⟩

theorem cancel_eq (h : s.IsSound) : s.cancel n =
    { s with
      entries := s.entries.filter (·.1 ≠ n)
      tasks := s.tasks.map (withdraw n) } := by
  unfold cancel
  cases hl : s.entries.lookup n with
  | none =>
    have hn : ¬ s.HasEntry n := by simp [HasEntry, hl]
    -- The task of the timer is over, or cancelled already.
    have htasks : s.tasks.map (withdraw n) = s.tasks := by
      refine (List.map_congr_left fun t ht => ?_).trans (List.map_id _)
      unfold withdraw
      split
      · next htimer =>
        have hc : t.cancelled ≠ false := fun hc =>
          hn (h.hasEntry_iff.mpr ⟨t, htimer ▸ h.task?_of_mem ht, hc⟩)
        rw [← Bool.not_eq_false _ |>.mp hc]
        rfl
      · rfl
    simp only [filter_entries hn, htasks]
  | some id =>
    obtain ⟨t, ht, rfl, rfl⟩ : ∃ t ∈ s.tasks, t.timer = n ∧ t.id = id := by
      have hmem : (n, id) ∈ s.entries := by
        obtain ⟨l₁, l₂, hs, -⟩ := List.lookup_eq_some_iff.mp hl
        simp [hs]
      rw [h.entries, List.mem_map] at hmem
      obtain ⟨t, ht, he⟩ := hmem
      exact ⟨t, List.mem_of_mem_filter ht, Prod.mk.inj he⟩
    have htasks : s.tasks.map (withdraw t.timer) =
        s.tasks.map fun u => if u.id = t.id then { u with cancelled := true } else u :=
      List.map_congr_left fun u hu => by simp only [withdraw, h.id_eq_iff hu ht]
    rw [htasks]
    rfl

theorem turnFrom_eq (h : s.IsSound) (ht : t ∈ s.tasks) (first : TimerBranch) :
    s.turnFrom first t.id =
      if s.isRipe t then
        (some (t.timer, if t.cancelled then .error .cancelled else .ok ()), s.finish t.timer)
      else (none, s.start t.timer) := by
  have hfind : s.tasks.find? (·.id = t.id) = some t := find?_eq_some_of_nodup h.ids ht
  have htasks : s.tasks.filter (·.id ≠ t.id) = s.tasks.filter (·.timer ≠ t.timer) :=
    List.filter_congr fun u hu => by simp only [Ne, h.id_eq_iff hu ht]
  have hfinish : (s.removeTask t.id).removeEntry t.timer = s.finish t.timer := by
    simp only [removeEntry, removeTask, finish, htasks]
  have hstart : s.tasks.map (fun u => if u.id = t.id then s.started t else u) =
      (s.start t.timer).tasks := by
    refine List.map_congr_left fun u hu => ?_
    simp only [h.id_eq_iff hu ht]
    split
    · next htimer => rw [h.eq_of_timer hu ht htimer]
    · rfl
  have hentry : s.HasEntry t.timer ↔ t.cancelled = false := by
    rw [h.hasEntry_iff, h.task?_of_mem ht]
    simp
  have hc : (s.started t).cancelled = t.cancelled := rfl
  have htimer : (s.started t).timer = t.timer := rfl
  cases hcancelled : t.cancelled with
  | true =>
    -- The cancellation has taken the entry, so the deadline decides as the token does.
    have hn : ¬ s.HasEntry t.timer := by simp [hentry, hcancelled]
    have hremove : s.finish t.timer = s.removeTask t.id := by
      simp only [removeTask, finish, htasks, filter_entries hn]
    have hentries : (s.removeTask t.id).removeEntry t.timer = s.removeTask t.id :=
      hfinish.trans hremove
    have hlookup : (s.entries.lookup t.timer).isSome = false := Bool.not_eq_true _ |>.mp hn
    cases hdue : s.isDue (s.started t) <;> cases first <;>
      simp [turnFrom, hfind, isRipe, hc, htimer, hcancelled, hdue, hlookup, hentries, hremove]
  | false =>
    have hlookup : (s.entries.lookup t.timer).isSome = true := hentry.mpr hcancelled
    cases hdue : s.isDue (s.started t) <;>
      simp [turnFrom, hfind, isRipe, hc, htimer, hcancelled, hdue, hlookup, hfinish, hstart]
    rfl

end IsSound

theorem task?_of_map {f : TimerTask → TimerTask} (hf : ∀ t, (f t).timer = t.timer)
    (es : List (Nat × Nat)) :
    task? { s with entries := es, tasks := s.tasks.map f } n = (s.task? n).map f := by
  simp only [task?, List.find?_map, Function.comp_def, hf]

theorem IsSound.of_map (h : s.IsSound) {f : TimerTask → TimerTask}
    (hf : ∀ t, (f t).id = t.id ∧ (f t).timer = t.timer) {es : List (Nat × Nat)}
    (he : es = ((s.tasks.map f).filter (!·.cancelled)).map fun t => (t.timer, t.id)) :
    IsSound { s with entries := es, tasks := s.tasks.map f } where
  ids := by simpa only [List.map_map, Function.comp_def, hf] using h.ids
  timers := by simpa only [List.map_map, Function.comp_def, hf] using h.timers
  below t ht := by
    obtain ⟨u, hu, rfl⟩ := List.mem_map.mp ht
    exact (hf u).1 ▸ h.below u hu
  entries := he

section Cancel

theorem withdraw_timer (t : TimerTask) : (withdraw n t).timer = t.timer := by
  unfold withdraw
  split <;> rfl

theorem withdraw_id (t : TimerTask) : (withdraw n t).id = t.id := by
  unfold withdraw
  split <;> rfl

theorem filter_withdraw (tasks : List TimerTask) :
    (tasks.map (withdraw n)).filter (!·.cancelled) =
      (tasks.filter (!·.cancelled)).filter (·.timer ≠ n) := by
  induction tasks with
  | nil => rfl
  | cons t tasks ih =>
    rw [List.map_cons]
    by_cases ht : t.timer = n <;> cases hc : t.cancelled <;> simp [withdraw, ht, hc, ih]

theorem IsSound.cancel (h : s.IsSound) (n : Nat) : (s.cancel n).IsSound := by
  rw [h.cancel_eq]
  refine h.of_map (fun t => ⟨withdraw_id t, withdraw_timer t⟩) ?_
  rw [h.entries, filter_withdraw, List.filter_map]
  rfl

theorem IsSound.task?_cancel (h : s.IsSound) :
    (s.cancel m).task? n = (s.task? n).map (withdraw m) := by
  rw [h.cancel_eq]
  exact task?_of_map withdraw_timer _

end Cancel

section Wake

theorem IsSound.start (h : s.IsSound) (n : Nat) : (s.start n).IsSound := by
  refine h.of_map (fun t => ?_) ?_
  · split <;> exact ⟨rfl, rfl⟩
  · rw [h.entries, List.filter_map, List.map_map]
    have hkeep (t : TimerTask) : (if t.timer = n then s.started t else t).cancelled =
        t.cancelled := by
      split <;> rfl
    simp only [Function.comp_def, hkeep]
    refine List.map_congr_left fun t _ => ?_
    split <;> rfl

theorem task?_start :
    (s.start m).task? n = if n = m then (s.task? n).map s.started else s.task? n := by
  rw [start, task?_of_map fun t => by split <;> rfl]
  cases ht : s.task? n with
  | none => split <;> rfl
  | some t =>
    obtain ⟨-, rfl⟩ := mem_of_task? ht
    split <;> simp_all

theorem IsSound.finish (h : s.IsSound) (n : Nat) : (s.finish n).IsSound where
  ids := h.ids.sublist (List.filter_sublist.map _)
  timers := h.timers.sublist (List.filter_sublist.map _)
  below t ht := h.below t (List.mem_of_mem_filter ht)
  entries := by
    simp only [TimerService.finish, h.entries, List.filter_map, List.filter_filter, Bool.and_comm]
    rfl

theorem task?_finish : (s.finish m).task? n = if n = m then none else s.task? n := by
  rw [task?, finish, List.find?_filter]
  split
  · next h => simp [h]
  · next h =>
    have hp (t : TimerTask) : t.timer ≠ m ∧ t.timer = n ↔ t.timer = n :=
      and_iff_right_of_imp fun ht => ht ▸ h
    simp only [decide_eq_true_eq, hp, task?]

end Wake

theorem IsSound.schedule (h : s.IsSound) (hn : s.task? n = none) (delay : Duration) :
    (s.schedule n delay).IsSound := by
  rw [task?_eq_none_iff] at hn
  constructor
  case ids =>
    have hnew : s.scheduled ∉ s.tasks.map (·.id) := fun hm => by
      obtain ⟨t, ht, hid⟩ := List.mem_map.mp hm
      exact absurd (h.below t ht) (by omega)
    simpa [TimerService.schedule, removeEntry, List.nodup_append, h.ids] using hnew
  case timers =>
    have hnew : n ∉ s.tasks.map (·.timer) := fun hm => by
      obtain ⟨t, ht, htimer⟩ := List.mem_map.mp hm
      exact hn t ht htimer
    simpa [TimerService.schedule, removeEntry, List.nodup_append, h.timers] using hnew
  case below =>
    intro t ht
    rcases List.mem_append.mp ht with ht | ht
    · exact Nat.lt_succ_of_lt (h.below t ht)
    · rw [List.mem_singleton.mp ht]
      exact Nat.lt_succ_self _
  case entries =>
    have hentry : ¬ s.HasEntry n := fun he => by
      obtain ⟨t, ht, -⟩ := h.hasEntry_iff.mp he
      exact hn t (mem_of_task? ht).1 (mem_of_task? ht).2
    have hes := filter_entries hentry
    simp only [TimerService.schedule, removeEntry, List.filter_append, List.map_append,
      ← h.entries, hes]
    rfl

theorem task?_schedule {delay : Duration} (hn : s.task? m = none) :
    (s.schedule m delay).task? n =
      if n = m then some ⟨s.scheduled, m, delay, none, false⟩ else s.task? n := by
  have happend : (s.schedule m delay).task? n =
      (s.task? n).or (List.find? (·.timer = n) [⟨s.scheduled, m, delay, none, false⟩]) :=
    List.find?_append
  rw [happend]
  split
  · next h => simp [h, hn]
  · next h => simp [Ne.symm h]

end TimerService

end PubSub
