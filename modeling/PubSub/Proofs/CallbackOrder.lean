import PubSub.Proofs.Workers

/-! # Order of callbacks

What has been accepted for a context is what has been told to be over, followed
by what its workers still have to do. Only one of them is busy, so that the
callbacks of the context run one after the other. A context whose callbacks are
not all settled has a worker that can go on, and workers take finitely many
steps, so that every callback that was accepted is settled in the end.
-/

namespace PubSub

namespace CallbackEvent

variable {τ : Type}

def acceptedFor? (c : Nat) : CallbackEvent τ → Option τ
  | accepted context task => if context = c then some task else none
  | rejected .. | started .. | ended .. | settled .. => none

def isTurnOf (c : Nat) : CallbackEvent τ → Bool
  | started context _ | ended context _ _ | settled context _ _ => context = c
  | accepted .. | rejected .. => false

def isAnswer : CallbackEvent τ → Bool
  | accepted .. | rejected .. => true
  | started .. | ended .. | settled .. => false

end CallbackEvent

section

variable {τ : Type}

def acceptedFor (c : Nat) (events : List (CallbackEvent τ)) : List τ :=
  events.filterMap (CallbackEvent.acceptedFor? c)

def turnsOf (c : Nat) (events : List (CallbackEvent τ)) : List (CallbackEvent τ) :=
  events.filter (CallbackEvent.isTurnOf c)

theorem acceptedFor_append {c : Nat} {events more : List (CallbackEvent τ)} :
    acceptedFor c (events ++ more) = acceptedFor c events ++ acceptedFor c more :=
  List.filterMap_append

theorem turnsOf_append {c : Nat} {events more : List (CallbackEvent τ)} :
    turnsOf c (events ++ more) = turnsOf c events ++ turnsOf c more :=
  List.filter_append ..

/-- What is seen of a callback that ends in some way. -/
def cycle (c : Nat) (x : τ × CallbackEnd) : List (CallbackEvent τ) :=
  [.started c x.1, .ended c x.1 x.2, .settled c x.1 x.2.outcome]

/-- The callbacks run one at a time and in order, each once: a callback begins when the completion
of the one before it has been told how that one ended. -/
inductive Serial (c : Nat) : List τ → List (CallbackEvent τ) → Prop
  | waiting (tasks : List τ) : Serial c tasks []
  | running (task : τ) (tasks : List τ) : Serial c (task :: tasks) [.started c task]
  | telling (task : τ) (tasks : List τ) (how : CallbackEnd) :
    Serial c (task :: tasks) [.started c task, .ended c task how]
  | settled (task : τ) (how : CallbackEnd) {tasks : List τ} {events : List (CallbackEvent τ)}
    (later : Serial c tasks events) :
    Serial c (task :: tasks)
      (.started c task :: .ended c task how :: .settled c task how.outcome :: events)

theorem Serial.of_settled {c : Nat} {tasks : List τ} {turns : List (CallbackEvent τ)}
    (h : Serial c tasks turns) (settled : List (τ × CallbackEnd)) :
    Serial c (settled.map Prod.fst ++ tasks) (settled.flatMap (cycle c) ++ turns) := by
  induction settled with
  | nil => exact h
  | cons x settled ih => exact .settled x.1 x.2 ih

theorem Serial.eq_nil {c : Nat} {turns : List (CallbackEvent τ)} (h : Serial c [] turns) :
    turns = [] := by
  cases h
  rfl

/-- All callbacks have run in order, and their completions have been told. -/
def Complete (c : Nat) (tasks : List τ) (events : List (CallbackEvent τ)) : Prop :=
  ∃ settled : List (τ × CallbackEnd),
    settled.map Prod.fst = tasks ∧ events = settled.flatMap (cycle c)

/-- The answers to submissions: all are accepted until the service closes, and none afterwards. -/
def answers : Bool → List (CallbackMove τ) → List (CallbackEvent τ)
  | _, [] => []
  | false, .run context task :: moves => .accepted context task :: answers false moves
  | true, .run context task :: moves =>
    .rejected context task (.error CallbackService.shutDown) :: answers true moves
  | _, .close :: moves => answers true moves
  | closed, .release _ :: moves | closed, .dropWorkers :: moves | closed, .proceed .. :: moves =>
    answers closed moves

def CallbackMove.isRun : CallbackMove τ → Bool
  | run .. => true
  | release _ | close | dropWorkers | proceed .. => false

def CallbackMove.isProceed : CallbackMove τ → Bool
  | proceed .. => true
  | run .. | release _ | close | dropWorkers => false

end

namespace Worker

variable {τ : Type} {α : Type} {f : Worker τ → List α} {c : Nat} {w w' : Worker τ}
  {ws vs : List (Worker τ)} {ends : τ → CallbackEnd} {finished : Nat → Bool}
  {events : List (CallbackEvent τ)}

def gather (f : Worker τ → List α) (c : Nat) (ws : List (Worker τ)) : List α :=
  (ws.filter (·.context = c)).flatMap f

theorem gather_append : gather f c (ws ++ vs) = gather f c ws ++ gather f c vs := by
  simp [gather]

theorem gather_cons_of_eq (h : w.context = c) : gather f c (w :: ws) = f w ++ gather f c ws := by
  simp [gather, h]

theorem gather_cons_of_ne (h : w.context ≠ c) : gather f c (w :: ws) = gather f c ws := by
  simp [gather, h]

theorem gather_eq_nil (h : ∀ w ∈ ws, w.context = c → f w = []) : gather f c ws = [] := by
  rw [gather, List.flatMap_eq_nil_iff]
  intro w hw
  obtain ⟨hw, hc⟩ := List.mem_filter.mp hw
  exact h w hw (of_decide_eq_true hc)

/-- A step brings the callbacks that are over, the one that is seen and those that are left
forward together. -/
theorem Steps.forward (h : Steps ends finished w w' events) :
    ∃ settled : List (τ × CallbackEnd), w.load = settled.map Prod.fst ++ w'.load ∧
      w.shown ++ events = settled.flatMap (cycle w.context) ++ w'.shown := by
  cases h with
  | await phase => exact ⟨[], by simp [load, current, phase], by simp [shown, phase]⟩
  | start phase queue =>
    exact ⟨[], by simp [load, current, phase, queue], by simp [shown, phase]⟩
  | leave phase => exact ⟨[], by simp [load, current, phase], by simp [shown, phase]⟩
  | finish phase => exact ⟨[], by simp [load, current, phase], by simp [shown, phase]⟩
  | @settle task how phase =>
    exact ⟨[(task, how)], by simp [load, current, phase], by simp [shown, phase, cycle]⟩

theorem Steps.acceptedFor (h : Steps ends finished w w' events) : acceptedFor c events = [] := by
  cases h <;> rfl

theorem Steps.turnsOf (h : Steps ends finished w w' events) :
    turnsOf c events = if w.context = c then events else [] := by
  cases h <;> simp [PubSub.turnsOf, CallbackEvent.isTurnOf, List.filter_cons]

theorem Steps.answers (h : Steps ends finished w w' events) :
    events.filter CallbackEvent.isAnswer = [] := by
  cases h <;> rfl

end Worker

namespace CallbackService

open Worker (gather gather_append gather_cons_of_eq gather_cons_of_ne gather_eq_nil)

variable {τ : Type} {s s' : CallbackService τ} {c : Nat} {events more : List (CallbackEvent τ)}
  {m : CallbackMove τ} {moves : List (CallbackMove τ)}

def backlog (s : CallbackService τ) (c : Nat) : List τ := gather Worker.load c s.workers

/-- What has been seen of the callback that a context is busy with. -/
def shown (s : CallbackService τ) (c : Nat) : List (CallbackEvent τ) :=
  gather Worker.shown c s.workers

def work (s : CallbackService τ) : Nat := (s.workers.map Worker.remaining).sum

theorem exists_around {α : Type} {l : List α} {i : Nat} {a : α} (h : l[i]? = some a) :
    ∃ before after, l = before ++ a :: after ∧ (∀ b, l.set i b = before ++ b :: after) ∧
      (∀ b ∈ before, ∃ j, j < i ∧ l[j]? = some b) ∧ ∀ b ∈ after, ∃ j, i < j ∧ l[j]? = some b := by
  obtain ⟨hi, rfl⟩ := List.getElem?_eq_some_iff.mp h
  refine ⟨l.take i, l.drop (i + 1), ?_, fun b => ?_, fun b hb => ?_, fun b hb => ?_⟩
  · rw [← List.drop_eq_getElem_cons hi, List.take_append_drop]
  · rw [List.set_eq_take_append_cons_drop, if_pos hi]
  · obtain ⟨j, hj⟩ := List.mem_iff_getElem?.mp hb
    rw [List.getElem?_take] at hj
    split at hj
    · exact ⟨j, ‹_›, hj⟩
    · cases hj
  · obtain ⟨j, hj⟩ := List.mem_iff_getElem?.mp hb
    rw [List.getElem?_drop] at hj
    exact ⟨i + 1 + j, by omega, hj⟩

theorem InLine.load_of_isFinished (h : s.InLine) {i : Nat} {w : Worker τ}
    (hw : s.workers[i]? = some w) (hf : w.isFinished) : w.load = [] := by
  rw [Worker.load, (h.done i w hw hf).1, Worker.current, Worker.isFinished_iff.mp hf,
    List.nil_append]

theorem InLine.exists_front (h : s.InLine) (c : Nat) :
    (∀ w ∈ s.workers, w.context = c → w.isFinished) ∨
      ∃ before w after, s.workers = before ++ w :: after ∧ w.context = c ∧ w.isFinished = false ∧
        (∀ v ∈ before, v.context = c → v.isFinished) ∧
        ∀ v ∈ after, v.context = c → v.isWaiting := by
  cases hfind : s.workers.find? fun w => w.context = c ∧ w.isFinished = false with
  | none =>
    rw [List.find?_eq_none] at hfind
    exact .inl fun w hw hc => by simpa [hc] using hfind w hw
  | some w =>
    obtain ⟨hw, before, after, heq, hbefore⟩ := List.find?_eq_some_iff_append.mp hfind
    obtain ⟨hc, hf⟩ := of_decide_eq_true hw
    refine .inr ⟨before, w, after, heq, hc, hf, fun v hv hvc => ?_, fun v hv hvc => ?_⟩
    · simpa [hvc] using hbefore v hv
    · have hi : s.workers[before.length]? = some w := by simp [heq]
      obtain ⟨k, hk⟩ := List.mem_iff_getElem?.mp hv
      have hj : s.workers[before.length + (k + 1)]? = some v := by
        rw [heq, List.getElem?_append_right (Nat.le_add_right ..), Nat.add_sub_cancel_left,
          List.getElem?_cons_succ, hk]
      refine (h.apart _ _ w v (by omega) hi hj (hc.trans hvc.symm)).resolve_right ?_
      rw [hf]
      exact Bool.false_ne_true

/-- The step of a worker brings its context forward, and no other one. -/
theorem InLine.forward (h : s.InLine) {i : Nat} {ends : τ → CallbackEnd}
    (hp : s.proceed ends i = some (s', more)) (c : Nat) :
    ∃ settled : List (τ × CallbackEnd), s.backlog c = settled.map Prod.fst ++ s'.backlog c ∧
      s.shown c ++ turnsOf c more = settled.flatMap (cycle c) ++ s'.shown c := by
  obtain ⟨w, w', hw, hs, rfl⟩ := proceed_eq_some hp
  obtain ⟨before, after, heq, hset, hbefore, hafter⟩ := exists_around hw
  simp only [backlog, shown, hset, hs.turnsOf]
  simp only [heq, gather_append]
  by_cases hc : w.context = c
  · subst hc
    have hload : gather Worker.load w.context before = [] := gather_eq_nil fun v hv hvc => by
      obtain ⟨j, hj, hv⟩ := hbefore v hv
      exact h.load_of_isFinished hv ((h.alone hw hs hv hvc).1 hj)
    have hshown : gather Worker.shown w.context before = [] := gather_eq_nil fun v hv hvc => by
      obtain ⟨j, hj, hv⟩ := hbefore v hv
      exact Worker.shown_of_isFinished ((h.alone hw hs hv hvc).1 hj)
    have hlater : gather Worker.shown w.context after = [] := gather_eq_nil fun v hv hvc => by
      obtain ⟨j, hj, hv⟩ := hafter v hv
      exact Worker.shown_of_isWaiting ((h.alone hw hs hv hvc).2 hj)
    obtain ⟨settled, hl, hv⟩ := hs.forward
    refine ⟨settled, ?_, ?_⟩
    · rw [gather_cons_of_eq rfl, gather_cons_of_eq hs.context, hload, hl]
      simp only [List.nil_append, List.append_assoc]
    · rw [gather_cons_of_eq rfl, gather_cons_of_eq hs.context, hshown, hlater, if_pos rfl]
      simpa using hv
  · refine ⟨[], ?_, ?_⟩
    · rw [gather_cons_of_ne hc, gather_cons_of_ne (hs.context.symm ▸ hc)]
      rfl
    · rw [gather_cons_of_ne hc, gather_cons_of_ne (hs.context.symm ▸ hc), if_neg hc,
        List.append_nil]
      rfl

theorem gather_hire {α : Type} {f : Worker τ → List α} {d : Nat}
    (hf : f ⟨d, [], true, .waiting (s.retired.lookup d)⟩ = []) :
    gather f c (s.hire d).workers = gather f c s.workers := by
  rw [hire, gather_append]
  refine (congrArg _ (gather_eq_nil fun w hw _ => ?_)).trans (List.append_nil _)
  cases List.mem_singleton.mp hw
  exact hf

theorem InLine.backlog_run (h : s.InLine) {d : Nat} {task : τ}
    (hm : s.step (.run d task) = some (s', more)) :
    s'.backlog c = s.backlog c ++ acceptedFor c more ∧ s'.shown c = s.shown c := by
  rcases h.run hm with ⟨-, rfl, rfl⟩ | ⟨-, rfl, u, i, w, -, hcase, hw, hwc, -, hlast, rfl⟩
  · exact ⟨(List.append_nil _).symm, rfl⟩
  have hu : u.backlog c = s.backlog c ∧ u.shown c = s.shown c := by
    rcases hcase with rfl | rfl
    · exact ⟨rfl, rfl⟩
    · exact ⟨gather_hire rfl, gather_hire rfl⟩
  rw [← hu.1, ← hu.2]
  obtain ⟨before, after, heq, hset, -, hafter⟩ := exists_around hw
  simp only [backlog, shown, hset]
  simp only [heq, gather_append, List.append_assoc]
  by_cases hd : d = c
  · have hnone : gather Worker.load c after = [] := gather_eq_nil fun v hv hvc => by
      obtain ⟨j, hj, hv⟩ := hafter v hv
      exact absurd (hvc.trans hd.symm) (hlast j v hj hv)
    have hc := hwc.trans hd
    refine ⟨?_, ?_⟩
    · rw [gather_cons_of_eq hc, gather_cons_of_eq (w := w.enqueue task) hc, hnone,
        Worker.load_enqueue]
      simp [acceptedFor, CallbackEvent.acceptedFor?, hd]
    · rw [gather_cons_of_eq hc, gather_cons_of_eq (w := w.enqueue task) hc, Worker.shown_enqueue]
  · have hne : w.context ≠ c := hwc ▸ hd
    refine ⟨?_, ?_⟩
    · rw [gather_cons_of_ne hne, gather_cons_of_ne (w := w.enqueue task) hne]
      simp [acceptedFor, CallbackEvent.acceptedFor?, hd]
    · rw [gather_cons_of_ne hne, gather_cons_of_ne (w := w.enqueue task) hne]

theorem gather_of_map_shut {α : Type} {f : Worker τ → List α} (hf : ∀ w, f w.shut = f w)
    (hsame : s'.workers.map Worker.shut = s.workers.map Worker.shut) :
    gather f c s'.workers = gather f c s.workers := by
  have hshut (ws : List (Worker τ)) : gather f c (ws.map Worker.shut) = gather f c ws := by
    simp only [gather, List.filter_map, List.flatMap_map, hf]
    rfl
  rw [← hshut, hsame, hshut]

/-- What is left of a context and what is accepted for it is over after a move, or still left. -/
theorem InLine.forward_step (h : s.InLine) (hm : s.step m = some (s', more)) (c : Nat) :
    ∃ settled : List (τ × CallbackEnd),
      s.backlog c ++ acceptedFor c more = settled.map Prod.fst ++ s'.backlog c ∧
        s.shown c ++ turnsOf c more = settled.flatMap (cycle c) ++ s'.shown c := by
  have hidle (hsame : s'.workers.map Worker.shut = s.workers.map Worker.shut) (hnone : more = []) :
      s.backlog c ++ acceptedFor c more = s'.backlog c ∧
        s.shown c ++ turnsOf c more = s'.shown c := by
    rw [hnone, backlog, shown, backlog, shown, gather_of_map_shut (fun _ => rfl) hsame,
      gather_of_map_shut (fun _ => rfl) hsame]
    exact ⟨List.append_nil _, List.append_nil _⟩
  cases m with
  | run d task =>
    obtain ⟨hb, hs⟩ := h.backlog_run (c := c) hm
    have hnone : turnsOf c more = [] := by
      rcases h.run hm with ⟨-, -, rfl⟩ | ⟨-, rfl, -⟩ <;> rfl
    exact ⟨[], hb.symm, by rw [hnone, hs, List.append_nil]; rfl⟩
  | release d =>
    cases hm
    exact ⟨[], hidle (map_shut_release d) rfl⟩
  | close =>
    cases hm
    exact ⟨[], hidle rfl rfl⟩
  | dropWorkers =>
    obtain ⟨-, rfl, rfl⟩ := step_dropWorkers hm
    exact ⟨[], hidle map_shut_dropWorkers rfl⟩
  | proceed i how =>
    have hnone : acceptedFor c more = [] := by
      obtain ⟨w, w', -, hstep, -⟩ := proceed_eq_some hm
      exact hstep.acceptedFor
    rw [hnone, List.append_nil]
    exact h.forward hm c

/-- What has been accepted for a context is over, or a worker has it. -/
def Accounts (s : CallbackService τ) (events : List (CallbackEvent τ)) : Prop :=
  ∀ c, ∃ settled : List (τ × CallbackEnd),
    acceptedFor c events = settled.map Prod.fst ++ s.backlog c ∧
      turnsOf c events = settled.flatMap (cycle c) ++ s.shown c

theorem Accounts.step (h : s.Accounts events) (hline : s.InLine)
    (hm : s.step m = some (s', more)) : s'.Accounts (events ++ more) := by
  intro c
  obtain ⟨settled, ha, ht⟩ := h c
  obtain ⟨next, hb, hs⟩ := hline.forward_step hm c
  refine ⟨settled ++ next, ?_, ?_⟩
  · rw [acceptedFor_append, ha, List.append_assoc, hb, List.map_append, List.append_assoc]
  · rw [turnsOf_append, ht, List.append_assoc, hs, List.flatMap_append, List.append_assoc]

/-- Of the callbacks that are left, only the first one has been seen. -/
theorem InLine.serial (h : s.InLine) (c : Nat) : Serial c (s.backlog c) (s.shown c) := by
  rw [backlog, shown]
  rcases h.exists_front c with hall | ⟨before, w, after, heq, hc, -, hbefore, hafter⟩
  · rw [gather_eq_nil fun w hw hwc => Worker.shown_of_isFinished (hall w hw hwc)]
    exact .waiting _
  · have hmem (v : Worker τ) (hv : v ∈ before) : ∃ i, s.workers[i]? = some v :=
      List.mem_iff_getElem?.mp (heq ▸ List.mem_append_left _ hv)
    have hload : gather Worker.load c before = [] := gather_eq_nil fun v hv hvc => by
      obtain ⟨i, hi⟩ := hmem v hv
      exact h.load_of_isFinished hi (hbefore v hv hvc)
    have hshown : gather Worker.shown c before = [] := gather_eq_nil fun v hv hvc =>
      Worker.shown_of_isFinished (hbefore v hv hvc)
    have hlater : gather Worker.shown c after = [] := gather_eq_nil fun v hv hvc =>
      Worker.shown_of_isWaiting (hafter v hv hvc)
    rw [heq, gather_append, gather_append, gather_cons_of_eq hc, gather_cons_of_eq hc, hload,
      hshown, hlater, List.append_nil]
    unfold Worker.load Worker.current Worker.shown
    cases w.phase with
    | waiting _ | idle | finished => exact .waiting _
    | running task => exact hc ▸ .running task _
    | ended task how => exact hc ▸ .telling task _ how

/-- A context that still has callbacks has a worker that can go on. -/
theorem InLine.exists_proceed (h : s.InLine) (hb : s.backlog c ≠ []) :
    ∃ i w, s.workers[i]? = some w ∧ w.context = c ∧
      ∀ ends, (s.proceed ends i).isSome := by
  rcases h.exists_front c with hall | ⟨before, w, after, heq, hc, hf, hbefore, hafter⟩
  · refine absurd (gather_eq_nil fun w hw hwc => ?_) hb
    obtain ⟨i, hi⟩ := List.mem_iff_getElem?.mp hw
    exact h.load_of_isFinished hi (hall w hw hwc)
  have hi : s.workers[before.length]? = some w := by simp [heq]
  refine ⟨before.length, w, hi, hc, fun ends => ?_⟩
  have hstep : (w.step ends s.isFinished).isSome := by
    cases hp : w.phase with
    | waiting p =>
      have hall : p.all s.isFinished := by
        cases p with
        | none => rfl
        | some p =>
          obtain ⟨hlt, v, hv, hvc⟩ := h.behind _ _ _ hi hp
          have hvb : v ∈ before := by
            rw [heq, List.getElem?_append_left hlt] at hv
            exact List.mem_of_getElem? hv
          simpa [isFinished, hv] using hbefore v hvb (hvc.trans hc)
      simp [Worker.step, hp, hall]
    | idle =>
      cases hq : w.queue with
      | cons task rest => simp [Worker.step, hp, hq]
      | nil =>
        cases ho : w.isOpen with
        | false => simp [Worker.step, hp, hq, ho]
        | true =>
          -- the worker would be the active one, and no other has anything to do
          refine absurd (gather_eq_nil fun v hv hvc => ?_) hb
          obtain ⟨-, -, -, -, hlast⟩ := h.active _ _ (h.isOpen _ _ hi ho)
          obtain ⟨j, hj⟩ := List.mem_iff_getElem?.mp hv
          rcases Nat.lt_trichotomy j before.length with hlt | rfl | hlt
          · have hvb : v ∈ before := by
              rw [heq, List.getElem?_append_left hlt] at hj
              exact List.mem_of_getElem? hj
            exact h.load_of_isFinished hj (hbefore v hvb hvc)
          · rw [hi] at hj
            cases hj
            simp [Worker.load, Worker.current, hp, hq]
          · exact absurd (hvc.trans hc.symm) (hlast j v hlt hj)
    | running _ | ended _ _ => simp [Worker.step, hp]
    | finished => simp [Worker.isFinished, hp] at hf
  obtain ⟨⟨w', more⟩, hw'⟩ := Option.isSome_iff_exists.mp hstep
  simp [CallbackService.proceed, hi, hw']

theorem work_of_map_shut (hsame : s'.workers.map Worker.shut = s.workers.map Worker.shut) :
    s'.work = s.work := by
  have hshut (ws : List (Worker τ)) :
      ((ws.map Worker.shut).map Worker.remaining).sum = (ws.map Worker.remaining).sum := by
    rw [List.map_map]
    rfl
  rw [work, ← hshut, hsame, hshut, work]

theorem InLine.work_step (h : s.InLine) (hm : s.step m = some (s', more)) :
    s'.work + (if m.isProceed then 1 else 0) ≤ s.work + (if m.isRun then 5 else 0) := by
  cases m with
  | run d task =>
    rcases h.run hm with ⟨-, rfl, -⟩ | ⟨-, -, u, i, w, -, hcase, hw, -, -, -, rfl⟩
    · exact Nat.le_add_right ..
    have hu : u.work ≤ s.work + 2 := by
      rcases hcase with rfl | rfl
      · exact Nat.le_add_right ..
      · simp [CallbackService.work, CallbackService.hire, Worker.remaining]
    obtain ⟨before, after, heq, hset, -⟩ := exists_around hw
    simp only [CallbackService.work, heq] at hu
    simp only [CallbackService.work, hset]
    simp [CallbackMove.isProceed, CallbackMove.isRun] at hu ⊢
    omega
  | release d =>
    cases hm
    rw [work_of_map_shut (map_shut_release d)]
    exact Nat.le_add_right ..
  | close =>
    cases hm
    exact Nat.le_add_right ..
  | dropWorkers =>
    obtain ⟨-, rfl, -⟩ := step_dropWorkers hm
    rw [work_of_map_shut map_shut_dropWorkers]
    exact Nat.le_add_right ..
  | proceed i how =>
    obtain ⟨w, w', hw, hs, rfl⟩ := proceed_eq_some hm
    obtain ⟨before, after, heq, hset, -⟩ := exists_around hw
    have := hs.remaining
    simp only [CallbackService.work, hset]
    simp [heq, CallbackMove.isProceed, CallbackMove.isRun]
    omega

theorem InLine.work_play (h : s.InLine) (hp : s.play moves = some (s', more)) :
    s'.work + moves.countP CallbackMove.isProceed ≤
      s.work + 5 * moves.countP CallbackMove.isRun := by
  induction moves generalizing s more with
  | nil =>
    cases hp
    exact Nat.le_refl _
  | cons m ms ih =>
    simp only [play, Option.bind_eq_bind, Option.bind_eq_some_iff, Prod.exists] at hp
    obtain ⟨u, first, hu, v, later, hv, hp⟩ := hp
    cases hp
    have hfirst := h.work_step hu
    have hlater := ih (h.step hu) hv
    simp only [List.countP_cons]
    split_ifs at hfirst ⊢ <;> omega

theorem answer_step (h : s.InLine) (hm : s.step m = some (s', more)) :
    more.filter CallbackEvent.isAnswer ++ answers s'.closed moves =
      answers s.closed (m :: moves) := by
  cases m with
  | run d task =>
    rcases h.run hm with ⟨hclosed, rfl, rfl⟩ | ⟨hclosed, rfl, u, i, w, -, hcase, -, -, -, -, rfl⟩
    · rw [hclosed]
      rfl
    · have hu : u.closed = false := by rcases hcase with rfl | rfl <;> exact hclosed
      rw [hclosed, hu]
      rfl
  | release d =>
    cases hm
    have hc : (s.release d).closed = s.closed := by
      unfold release
      dsimp only
      split <;> rfl
    simp [hc, answers]
  | close =>
    cases hm
    simp [answers, close]
  | dropWorkers =>
    obtain ⟨-, rfl, rfl⟩ := step_dropWorkers hm
    simp [answers, dropWorkers]
  | proceed i how =>
    obtain ⟨w, w', -, hs, rfl⟩ := proceed_eq_some hm
    simp [hs.answers, answers]

theorem InLine.answers_play (h : s.InLine) (hp : s.play moves = some (s', more)) :
    more.filter CallbackEvent.isAnswer = answers s.closed moves := by
  induction moves generalizing s more with
  | nil =>
    cases hp
    simp [answers]
  | cons m ms ih =>
    simp only [play, Option.bind_eq_bind, Option.bind_eq_some_iff, Prod.exists] at hp
    obtain ⟨u, first, hu, v, later, hv, hp⟩ := hp
    cases hp
    rw [List.filter_append, ih (h.step hu) hv, answer_step h hu]

structure Orderly (moves : List (CallbackMove τ)) (s : CallbackService τ)
    (events : List (CallbackEvent τ)) : Prop where
  /-- Every submission gets its answer, and only what comes after the shutdown is turned down. -/
  answered : events.filter CallbackEvent.isAnswer = answers false moves
  /-- The callbacks that a context accepted run one after the other in their order, and nothing
  else runs. -/
  serial : ∀ c, Serial c (acceptedFor c events) (turnsOf c events)
  /-- Unless all that a context accepted is settled one of its workers can go on. -/
  live : ∀ c, Complete c (acceptedFor c events) (turnsOf c events) ∨
    ∃ i w, s.workers[i]? = some w ∧ w.context = c ∧ ∀ ends, (s.proceed ends i).isSome
  /-- The steps that were taken and those that are left. -/
  bounded : moves.countP CallbackMove.isProceed + s.work ≤ 5 * moves.countP CallbackMove.isRun

theorem play_orderly (h : (empty : CallbackService τ).play moves = some (s, events)) :
    Orderly moves s events := by
  have hinv : s.InLine ∧ s.Accounts ([] ++ events) := by
    refine play_induction (P := fun s events => s.InLine ∧ s.Accounts events)
      (fun hs hm => ⟨hs.1.step hm, hs.2.step hs.1 hm⟩) ⟨InLine.empty, fun c => ⟨[], rfl, rfl⟩⟩ h
  obtain ⟨hline, haccounts⟩ := hinv
  constructor
  · exact InLine.empty.answers_play h
  · intro c
    obtain ⟨settled, ha, ht⟩ := haccounts c
    rw [List.nil_append] at ha ht
    rw [ha, ht]
    exact (hline.serial c).of_settled settled
  · intro c
    by_cases hb : s.backlog c = []
    · obtain ⟨settled, ha, ht⟩ := haccounts c
      have hs : s.shown c = [] := (hb ▸ hline.serial c).eq_nil
      rw [hb, List.append_nil] at ha
      rw [hs, List.append_nil] at ht
      exact .inl ⟨settled, ha.symm, ht⟩
    · exact .inr (hline.exists_proceed hb)
  · have hwork := InLine.empty.work_play h
    simp only [CallbackService.work, CallbackService.empty, List.map_nil, List.sum_nil] at hwork
    simp only [CallbackService.work]
    omega

/-- A context is released and used again while its first callback runs, and the service is shut
down before that callback is over. -/
def reuse : List (CallbackMove String) :=
  [.run 0 "first", .proceed 0 .returns, .proceed 0 .returns, .release 0, .run 0 "second",
    .proceed 0 (.panics "boom"), .close, .run 0 "late", .dropWorkers, .proceed 0 .returns,
    .proceed 0 .returns, .proceed 1 .returns, .proceed 1 .returns, .proceed 1 .returns,
    .proceed 1 .returns]

theorem play_reuse_orderly : ∃ s events,
    (empty : CallbackService String).play reuse = some (s, events) ∧
      turnsOf 0 events = cycle 0 ("first", .panics "boom") ++ cycle 0 ("second", .returns) ∧
      Orderly reuse s events :=
  ⟨_, _, rfl, rfl, play_orderly rfl⟩

end CallbackService

end PubSub
