import Mathlib.Algebra.BigOperators.Group.List.Basic
import Mathlib.Algebra.GroupWithZero.Nat
import PubSub.CallbackService

/-! # Workers and their order

Submissions, releases and the shutdown come in any order, and the workers go on
in between, each when it likes. The workers of one context form a line: one
begins when those before it have finished. The callbacks of a context therefore
run one after the other in the order of their submission, whatever happens to
the workers that hold them.
-/

namespace PubSub

namespace Worker

variable {τ : Type} {w w' : Worker τ} {ends : τ → CallbackEnd} {finished : Nat → Bool}
  {events : List (CallbackEvent τ)}

def isWaiting (w : Worker τ) : Bool :=
  match w.phase with
  | .waiting _ => true
  | _ => false

def current (w : Worker τ) : List τ :=
  match w.phase with
  | .running task | .ended task _ => [task]
  | .waiting _ | .idle | .finished => []

def load (w : Worker τ) : List τ := w.current ++ w.queue

def shown (w : Worker τ) : List (CallbackEvent τ) :=
  match w.phase with
  | .running task => [.started w.context task]
  | .ended task how => [.started w.context task, .ended w.context task how]
  | .waiting _ | .idle | .finished => []

theorem eq_waiting_of_isWaiting (h : w.isWaiting) : ∃ p, w.phase = .waiting p := by
  unfold isWaiting at h
  split at h
  · exact ⟨_, ‹_›⟩
  · cases h

@[simp]
theorem load_enqueue {task : τ} : (w.enqueue task).load = w.load ++ [task] :=
  (List.append_assoc ..).symm

@[simp]
theorem shown_enqueue {task : τ} : (w.enqueue task).shown = w.shown := rfl

@[simp]
theorem remaining_enqueue {task : τ} : (w.enqueue task).remaining = w.remaining + 3 := by
  simp only [remaining, enqueue, List.length_append, List.length_singleton]
  omega

theorem isFinished_iff : w.isFinished ↔ w.phase = .finished := by
  unfold isFinished
  split <;> simp_all

theorem shown_of_isWaiting (h : w.isWaiting) : w.shown = [] := by
  obtain ⟨p, hp⟩ := eq_waiting_of_isWaiting h
  simp [shown, hp]

theorem shown_of_isFinished (h : w.isFinished) : w.shown = [] := by
  simp [shown, isFinished_iff.mp h]

inductive Steps (ends : τ → CallbackEnd) (finished : Nat → Bool) (w : Worker τ) :
    Worker τ → List (CallbackEvent τ) → Prop
  | await {p : Option Nat} (phase : w.phase = .waiting p) (before : p.all finished) :
    Steps ends finished w { w with phase := .idle } []
  | start {task : τ} {rest : List τ} (phase : w.phase = .idle) (queue : w.queue = task :: rest) :
    Steps ends finished w { w with queue := rest, phase := .running task }
      [.started w.context task]
  | leave (phase : w.phase = .idle) (queue : w.queue = []) (closed : w.isOpen = false) :
    Steps ends finished w { w with phase := .finished } []
  | finish {task : τ} (phase : w.phase = .running task) :
    Steps ends finished w { w with phase := .ended task (ends task) }
      [.ended w.context task (ends task)]
  | settle {task : τ} {how : CallbackEnd} (phase : w.phase = .ended task how) :
    Steps ends finished w { w with phase := .idle } [.settled w.context task how.outcome]

theorem steps_of_step (h : w.step ends finished = some (w', events)) :
    Steps ends finished w w' events := by
  unfold step at h
  split at h
  · next p hp =>
    split at h <;> cases h
    exact .await hp ‹_›
  · next hp =>
    split at h
    · cases h
      exact .start hp ‹_›
    · split at h <;> cases h
      next hq ho =>
        exact .leave hp hq (Bool.eq_false_iff.mpr ho)
  · cases h
    exact .finish ‹_›
  · cases h
    exact .settle ‹_›
  · cases h

theorem Steps.context (h : Steps ends finished w w' events) : w'.context = w.context := by
  cases h <;> rfl

theorem Steps.isOpen (h : Steps ends finished w w' events) : w'.isOpen = w.isOpen := by
  cases h <;> rfl

theorem Steps.remaining (h : Steps ends finished w w' events) :
    w'.remaining + 1 = w.remaining := by
  cases h with
  | await phase => simp [Worker.remaining, phase]
  | start phase queue => simp [Worker.remaining, phase, queue]; omega
  | leave phase => simp [Worker.remaining, phase]
  | finish phase => simp [Worker.remaining, phase]
  | settle phase => simp [Worker.remaining, phase]

end Worker

inductive CallbackMove (τ : Type) where
  | run (context : Nat) (task : τ)
  | release (context : Nat)
  /-- The first half of a shutdown. -/
  | close
  /-- The second half of a shutdown. -/
  | dropWorkers
  /-- A worker takes its next step. If a callback ends in it, it ends in this way. -/
  | proceed (worker : Nat) (how : CallbackEnd)
  deriving DecidableEq

namespace CallbackService

variable {τ : Type} {s s' : CallbackService τ} {c : Nat} {events more : List (CallbackEvent τ)}

/-- The service after a move and what happens in it, if the move is possible. -/
def step (s : CallbackService τ) :
    CallbackMove τ → Option (CallbackService τ × List (CallbackEvent τ))
  | .run context task =>
    match s.run? context task with
    | none => some (s, [.rejected context task (.error shutDown)])
    | some s => some (s, [.accepted context task])
  | .release context => some (s.release context, [])
  | .close => some (s.close, [])
  | .dropWorkers => if s.closed then some (s.dropWorkers, []) else none
  | .proceed worker how => s.proceed (fun _ => how) worker

def play (s : CallbackService τ) :
    List (CallbackMove τ) → Option (CallbackService τ × List (CallbackEvent τ))
  | [] => some (s, [])
  | m :: ms => do
    let (s, events) ← s.step m
    let (s, later) ← s.play ms
    some (s, events ++ later)

theorem play_induction {P : CallbackService τ → List (CallbackEvent τ) → Prop}
    (hstep : ∀ {s s' m events more}, P s events → s.step m = some (s', more) →
      P s' (events ++ more))
    {moves : List (CallbackMove τ)} (hs : P s events) (h : s.play moves = some (s', more)) :
    P s' (events ++ more) := by
  induction moves generalizing s events more with
  | nil =>
    cases h
    rwa [List.append_nil]
  | cons m ms ih =>
    simp only [play, Option.bind_eq_bind, Option.bind_eq_some_iff, Prod.exists] at h
    obtain ⟨u, first, hu, v, later, hv, h⟩ := h
    cases h
    rw [← List.append_assoc]
    exact ih (hstep hs hu) hv

theorem proceed_eq_some {ends : τ → CallbackEnd} {i : Nat}
    (h : s.proceed ends i = some (s', more)) :
    ∃ w w', s.workers[i]? = some w ∧ w.Steps ends s.isFinished w' more ∧
      s' = { s with workers := s.workers.set i w' } := by
  simp only [proceed, Option.bind_eq_bind, Option.bind_eq_some_iff, Prod.exists] at h
  obtain ⟨w, hw, w', events, hs, h⟩ := h
  cases h
  exact ⟨w, w', hw, Worker.steps_of_step hs, rfl⟩

theorem step_dropWorkers (h : s.step .dropWorkers = some (s', more)) :
    s.closed ∧ s' = s.dropWorkers ∧ more = [] := by
  simp only [step] at h
  split at h <;> cases h
  exact ⟨‹_›, rfl, rfl⟩

theorem map_shut_closeWorker (i : Nat) :
    (s.closeWorker i).workers.map Worker.shut = s.workers.map Worker.shut := by
  refine List.ext_getElem? fun j => ?_
  rw [List.getElem?_map, List.getElem?_map, closeWorker, List.getElem?_modify]
  cases s.workers[j]? with
  | none => rfl
  | some w =>
    by_cases hij : i = j
    · simp [hij, Worker.shut]
    · simp [hij]

theorem map_shut_release (c : Nat) :
    (s.release c).workers.map Worker.shut = s.workers.map Worker.shut := by
  unfold release
  dsimp only
  split
  · rfl
  · exact map_shut_closeWorker _

theorem map_shut_dropWorkers :
    s.dropWorkers.workers.map Worker.shut = s.workers.map Worker.shut := by
  simp [dropWorkers, Worker.shut]

theorem mem_of_lookup {entries : List (Nat × Nat)} {i : Nat} (h : entries.lookup c = some i) :
    (c, i) ∈ entries := by
  obtain ⟨before, after, rfl, -⟩ := List.lookup_eq_some_iff.mp h
  simp

theorem lookup_without_self (entries : List (Nat × Nat)) : (without c entries).lookup c = none := by
  simp only [without, List.lookup_eq_none_iff, List.mem_filter]
  grind

theorem lookup_without_of_ne {d : Nat} {entries : List (Nat × Nat)} (h : d ≠ c) :
    (without c entries).lookup d = entries.lookup d := by
  induction entries with
  | nil => rfl
  | cons entry entries ih => grind [without]

theorem lookup_filter {entries : List (Nat × Nat)} {p : Nat} {keep : Nat × Nat → Bool}
    (h : entries.lookup c = some p) (hkeep : keep (c, p))
    (hsingle : (entries.map Prod.fst).Nodup) : (entries.filter keep).lookup c = some p := by
  induction entries with
  | nil => cases h
  | cons entry entries ih =>
    obtain ⟨d, q⟩ := entry
    rw [List.map_cons, List.nodup_cons] at hsingle
    rw [List.lookup_cons] at h
    split at h
    · next he =>
      cases h
      cases beq_iff_eq.mp he
      rw [List.filter_cons_of_pos hkeep, List.lookup_cons_self]
    · next he =>
      rw [List.filter_cons]
      split
      · rw [List.lookup_cons, he]
        exact ih h hsingle.2
      · exact ih h hsingle.2

/-- Of the first `n` workers, those of a context have finished, or they come no later than a
given one. -/
def Covers (s : CallbackService τ) (n c : Nat) (last : Option Nat) : Prop :=
  ∀ i v, i < n → s.workers[i]? = some v → v.context = c →
    v.isFinished ∨ ∃ p, last = some p ∧ i ≤ p

/-- The workers of every context form a line. -/
structure InLine (s : CallbackService τ) : Prop where
  /-- A worker begins when those before it have finished. -/
  apart : ∀ (i j : Nat) (v w : Worker τ), i < j → s.workers[i]? = some v →
    s.workers[j]? = some w → v.context = w.context → w.isWaiting ∨ v.isFinished
  done : ∀ (i : Nat) (w : Worker τ), s.workers[i]? = some w → w.isFinished →
    w.queue = [] ∧ w.isOpen = false
  behind : ∀ (i : Nat) (w : Worker τ) (p : Nat), s.workers[i]? = some w →
    w.phase = .waiting (some p) → p < i ∧ ∃ v, s.workers[p]? = some v ∧ v.context = w.context
  covered : ∀ (i : Nat) (w : Worker τ) (p : Option Nat), s.workers[i]? = some w →
    w.phase = .waiting p → s.Covers i w.context p
  /-- The active worker of a context is open, and the last one. -/
  active : ∀ c i, (c, i) ∈ s.active → ∃ w, s.workers[i]? = some w ∧ w.context = c ∧ w.isOpen ∧
    ∀ (j : Nat) (v : Worker τ), i < j → s.workers[j]? = some v → v.context ≠ c
  isOpen : ∀ (i : Nat) (w : Worker τ), s.workers[i]? = some w → w.isOpen →
    (w.context, i) ∈ s.active
  retired : ∀ c p, (c, p) ∈ s.retired → ∃ v, s.workers[p]? = some v ∧ v.context = c
  single : (s.retired.map Prod.fst).Nodup
  /-- A new worker would wait for whoever has not finished. -/
  last : s.closed = false → ∀ c, s.active.lookup c = none →
    s.Covers s.workers.length c (s.retired.lookup c)

namespace InLine

variable {i : Nat} {w w' : Worker τ} {ends : τ → CallbackEnd}

theorem empty : (empty : CallbackService τ).InLine := by
  constructor <;> simp [CallbackService.empty, Covers]

/-- Once a worker has begun, whoever comes before it in its context has finished. -/
theorem before (h : s.InLine) {p : Nat} {v u : Worker τ} (hu : s.workers[p]? = some u)
    (hbegun : u.isFinished) (hv : s.workers[i]? = some v) (hi : i ≤ p)
    (hc : v.context = u.context) : v.isFinished := by
  rcases Nat.lt_or_eq_of_le hi with hlt | rfl
  · refine (h.apart i p v u hlt hv hu hc).resolve_left fun hw => ?_
    obtain ⟨q, hq⟩ := Worker.eq_waiting_of_isWaiting hw
    rw [Worker.isFinished_iff, hq] at hbegun
    cases hbegun
  · rw [hu] at hv
    cases hv
    exact hbegun

/-- A worker that takes a step is alone: those before it in its context have finished, and those
after it wait. -/
theorem alone (h : s.InLine) (hw : s.workers[i]? = some w)
    (hs : w.Steps ends s.isFinished w' more) {j : Nat} {v : Worker τ}
    (hv : s.workers[j]? = some v) (hc : v.context = w.context) :
    (j < i → v.isFinished) ∧ (i < j → v.isWaiting) := by
  have hrun : ¬ w.isFinished := by
    rw [Worker.isFinished_iff]
    cases hs <;> simp_all
  refine ⟨fun hlt => ?_, fun hlt => (h.apart i j w v hlt hw hv hc.symm).resolve_right hrun⟩
  by_cases hwait : w.isWaiting
  · obtain ⟨p, hp⟩ := Worker.eq_waiting_of_isWaiting hwait
    have hbefore : p.all s.isFinished := by
      cases hs with
      | await phase before => rw [hp] at phase; cases phase; exact before
      | start phase | leave phase | finish phase | settle phase => rw [hp] at phase; cases phase
    rcases h.covered i w p hw hp j v hlt hv hc with hf | ⟨p, rfl, hle⟩
    · exact hf
    · obtain ⟨-, u, hu, hcu⟩ := h.behind i w p hw hp
      have hfin : u.isFinished := by simpa [isFinished, hu] using hbefore
      exact h.before hu hfin hv hle (hc.trans hcu.symm)
  · exact (h.apart j i v w hlt hv hw hc).resolve_left hwait

end InLine

/-- The same workers, none of which has gone back. -/
structure Advances (s s' : CallbackService τ) : Prop where
  length : s'.workers.length = s.workers.length
  worker : ∀ (i : Nat) (v : Worker τ), s'.workers[i]? = some v → ∃ u, s.workers[i]? = some u ∧
    v.context = u.context ∧ (u.isFinished → v.isFinished) ∧ (v.isWaiting → v.phase = u.phase)

namespace Advances

theorem exists_worker (ha : s.Advances s') {i : Nat} {u : Worker τ}
    (hu : s.workers[i]? = some u) : ∃ v, s'.workers[i]? = some v ∧ v.context = u.context := by
  have hi : i < s'.workers.length := by
    rw [ha.length]
    exact (List.getElem?_eq_some_iff.mp hu).1
  have hv := List.getElem?_eq_getElem hi
  obtain ⟨u', hu', hc, -⟩ := ha.worker i _ hv
  rw [hu] at hu'
  cases hu'
  exact ⟨_, hv, hc⟩

theorem covers (ha : s.Advances s') {n : Nat} {p : Option Nat} (h : s.Covers n c p) :
    s'.Covers n c p := by
  intro i v hi hv hvc
  obtain ⟨u, hu, hcu, hfu, -⟩ := ha.worker i v hv
  exact (h i u hi hu (hcu ▸ hvc)).imp_left hfu

theorem behind (ha : s.Advances s') (h : s.InLine) (i : Nat) (w : Worker τ) (p : Nat)
    (hw : s'.workers[i]? = some w) (hp : w.phase = .waiting (some p)) :
    p < i ∧ ∃ v, s'.workers[p]? = some v ∧ v.context = w.context := by
  obtain ⟨u, hu, hcu, -, hwu⟩ := ha.worker i w hw
  obtain ⟨hlt, x, hx, hcx⟩ := h.behind i u p hu (hwu (by simp [Worker.isWaiting, hp]) ▸ hp)
  obtain ⟨y, hy, hcy⟩ := ha.exists_worker hx
  exact ⟨hlt, y, hy, by rw [hcy, hcx, hcu]⟩

theorem covered (ha : s.Advances s') (h : s.InLine) (i : Nat) (w : Worker τ) (p : Option Nat)
    (hw : s'.workers[i]? = some w) (hp : w.phase = .waiting p) : s'.Covers i w.context p := by
  obtain ⟨u, hu, hcu, -, hwu⟩ := ha.worker i w hw
  rw [hcu]
  exact ha.covers (h.covered i u p hu (hwu (by simp [Worker.isWaiting, hp]) ▸ hp))

end Advances

namespace InLine

variable {i : Nat} {w w' : Worker τ} {ends : τ → CallbackEnd}

theorem replace (h : s.InLine) (hw : s.workers[i]? = some w) (hc : w'.context = w.context)
    (ho : w'.isOpen = w.isOpen) (hdone : w'.isFinished → w'.queue = [] ∧ w'.isOpen = false)
    (hf : w.isFinished → w'.isFinished)
    (hphase : w'.phase = w.phase ∨ w'.isWaiting = false ∧
      ∀ j v, j < i → s.workers[j]? = some v → v.context = w.context → v.isFinished) :
    ({ s with workers := s.workers.set i w' } : CallbackService τ).InLine := by
  have hget (j : Nat) : (s.workers.set i w')[j]? = if i = j then some w' else s.workers[j]? := by
    rw [List.getElem?_set, if_pos (List.getElem?_eq_some_iff.mp hw).1]
  have hold {j : Nat} {v : Worker τ} (hv : (s.workers.set i w')[j]? = some v) :
      s.workers[j]? = some v ∨ i = j ∧ v = w' := by
    rw [hget] at hv
    split at hv
    · cases hv
      exact .inr ⟨‹_›, rfl⟩
    · exact .inl hv
  have ha : s.Advances { s with workers := s.workers.set i w' } := by
    refine ⟨List.length_set, fun j v hv => ?_⟩
    rcases hold hv with hv | ⟨rfl, rfl⟩
    · exact ⟨v, hv, rfl, id, fun _ => rfl⟩
    · refine ⟨w, hw, hc, hf, fun hwait => hphase.resolve_right fun hn => ?_⟩
      simp [hn.1] at hwait
  refine ⟨?apart, ?done, ha.behind h, ha.covered h, ?active, ?isOpen, ?retired, h.single, ?last⟩
  case apart =>
    intro a b u v hab hu hv huv
    rw [hget] at hu hv
    split at hv
    · next hb =>
      subst hb
      cases hv
      rw [if_neg (Nat.ne_of_gt hab)] at hu
      rcases hphase with he | ⟨-, hall⟩
      · have hwait : w'.isWaiting = w.isWaiting := by simp [Worker.isWaiting, he]
        exact hwait ▸ h.apart a i u w hab hu hw (huv.trans hc)
      · exact .inr (hall a u hab hu (huv.trans hc))
    · split at hu
      · next ha =>
        subst ha
        cases hu
        exact (h.apart i b w v hab hw hv (hc.symm.trans huv)).imp_right hf
      · exact h.apart a b u v hab hu hv huv
  case done =>
    intro j v hv hfin
    rcases hold hv with hv | ⟨-, rfl⟩
    · exact h.done j v hv hfin
    · exact hdone hfin
  case active =>
    intro c j hj
    obtain ⟨u, hu, hcu, hou, hlast⟩ := h.active c j hj
    have hlater (k : Nat) (x : Worker τ) (hk : j < k) (hx : (s.workers.set i w')[k]? = some x) :
        x.context ≠ c := by
      obtain ⟨y, hy, hcy, -⟩ := ha.worker k x hx
      exact hcy ▸ hlast k y hk hy
    by_cases hij : i = j
    · subst hij
      rw [hw] at hu
      cases hu
      exact ⟨w', (hget i).trans (if_pos rfl), hc.trans hcu, ho.trans hou, hlater⟩
    · exact ⟨u, (hget j).trans ((if_neg hij).trans hu), hcu, hou, hlater⟩
  case isOpen =>
    intro j v hv hov
    rcases hold hv with hv | ⟨rfl, rfl⟩
    · exact h.isOpen j v hv hov
    · exact hc ▸ h.isOpen i w hw (ho ▸ hov)
  case retired =>
    intro c p hp
    obtain ⟨u, hu, hcu⟩ := h.retired c p hp
    obtain ⟨v, hv, hcv⟩ := ha.exists_worker hu
    exact ⟨v, hv, hcv.trans hcu⟩
  case last =>
    intro hopen c hnone
    have hlast := h.last hopen c hnone
    rw [← ha.length] at hlast
    exact ha.covers hlast

theorem proceed (h : s.InLine) (hp : s.proceed ends i = some (s', more)) : s'.InLine := by
  obtain ⟨w, w', hw, hs, rfl⟩ := proceed_eq_some hp
  refine h.replace hw hs.context hs.isOpen ?_ ?_ (.inr ⟨?_, fun j v hlt hv hc => ?_⟩)
  · cases hs with
    | leave phase queue closed => exact fun _ => ⟨queue, closed⟩
    | _ => simp [Worker.isFinished]
  · rw [Worker.isFinished_iff]
    cases hs <;> simp_all
  · cases hs <;> rfl
  · exact (h.alone hw hs hv hc).1 hlt

/-- The active worker of a context still takes callbacks, and it is the last one. -/
theorem lookup_active (h : s.InLine) (ha : s.active.lookup c = some i) :
    ∃ w, s.workers[i]? = some w ∧ w.context = c ∧ w.isFinished = false ∧
      ∀ (j : Nat) (v : Worker τ), i < j → s.workers[j]? = some v → v.context ≠ c := by
  obtain ⟨w, hw, hc, ho, hlast⟩ := h.active c i (mem_of_lookup ha)
  refine ⟨w, hw, hc, Bool.eq_false_iff.mpr fun hf => ?_, hlast⟩
  rw [(h.done i w hw hf).2] at ho
  cases ho

theorem enqueue (h : s.InLine) (hw : s.workers[i]? = some w) (hf : w.isFinished = false)
    (task : τ) :
    ({ s with workers := s.workers.set i (w.enqueue task) } : CallbackService τ).InLine := by
  refine h.replace hw rfl rfl (fun hfin => ?_) id (.inl rfl)
  exact absurd hfin (Bool.eq_false_iff.mp hf)

theorem hire (h : s.InLine) (hopen : s.closed = false) (hnone : s.active.lookup c = none) :
    (s.hire c).InLine := by
  have hget {j : Nat} {v : Worker τ} (hv : (s.hire c).workers[j]? = some v) :
      s.workers[j]? = some v ∨
        j = s.workers.length ∧ v = ⟨c, [], true, .waiting (s.retired.lookup c)⟩ := by
    rw [CallbackService.hire, List.getElem?_append] at hv
    split at hv
    · exact .inl hv
    · rw [List.getElem?_singleton] at hv
      split at hv <;> cases hv
      exact .inr ⟨by omega, rfl⟩
  have hlt {j : Nat} {v : Worker τ} (hv : s.workers[j]? = some v) : j < s.workers.length :=
    (List.getElem?_eq_some_iff.mp hv).1
  have hold {j : Nat} {v : Worker τ} (hv : s.workers[j]? = some v) :
      (s.hire c).workers[j]? = some v := by
    rw [CallbackService.hire, List.getElem?_append_left (hlt hv), hv]
  have hcovers {d : Nat} {p : Option Nat} (hn : s.Covers s.workers.length d p) :
      (s.hire c).Covers s.workers.length d p := by
    intro j v hj hv hvc
    rcases hget hv with hv | ⟨rfl, -⟩
    · exact hn j v hj hv hvc
    · exact absurd hj (Nat.lt_irrefl _)
  constructor
  case apart =>
    intro i j v w hij hv hw hvw
    rcases hget hw with hw | ⟨rfl, rfl⟩
    · rcases hget hv with hv | ⟨rfl, -⟩
      · exact h.apart i j v w hij hv hw hvw
      · exact absurd (hlt hw) (Nat.lt_asymm hij)
    · exact .inl rfl
  case done =>
    intro i w hw hf
    rcases hget hw with hw | ⟨rfl, rfl⟩
    · exact h.done i w hw hf
    · cases hf
  case behind =>
    intro i w p hw hp
    rcases hget hw with hw | ⟨rfl, rfl⟩
    · obtain ⟨hpi, v, hv, hvc⟩ := h.behind i w p hw hp
      exact ⟨hpi, v, hold hv, hvc⟩
    · injection hp with hp
      obtain ⟨v, hv, hvc⟩ := h.retired c p (mem_of_lookup hp)
      exact ⟨hlt hv, v, hold hv, hvc⟩
  case covered =>
    intro i w p hw hp
    rcases hget hw with hw | ⟨rfl, rfl⟩
    · intro j v hj hv hvc
      rcases hget hv with hv | ⟨rfl, -⟩
      · exact h.covered i w p hw hp j v hj hv hvc
      · exact absurd (hlt hw) (Nat.lt_asymm hj)
    · injection hp with hp
      exact hp ▸ hcovers (h.last hopen c hnone)
  case active =>
    intro d i hi
    rcases List.mem_append.mp hi with hi | hi
    · obtain ⟨w, hw, hwc, ho, hlast⟩ := h.active d i hi
      refine ⟨w, hold hw, hwc, ho, fun j v hj hv => ?_⟩
      rcases hget hv with hv | ⟨rfl, rfl⟩
      · exact hlast j v hj hv
      · rintro rfl
        have := List.lookup_eq_none_iff.mp hnone _ hi
        simp at this
    · cases List.mem_singleton.mp hi
      refine ⟨_, List.getElem?_concat_length, rfl, rfl, fun j v hj hv => ?_⟩
      rcases hget hv with hv | ⟨rfl, -⟩
      · exact absurd (hlt hv) (Nat.lt_asymm hj)
      · exact absurd hj (Nat.lt_irrefl _)
  case isOpen =>
    intro i w hw ho
    rcases hget hw with hw | ⟨rfl, rfl⟩
    · exact List.mem_append_left _ (h.isOpen i w hw ho)
    · exact List.mem_append_right _ (List.mem_singleton.mpr rfl)
  case retired =>
    intro d p hp
    obtain ⟨v, hv, hvc⟩ := h.retired d p (List.mem_filter.mp hp).1
    exact ⟨v, hold hv, hvc⟩
  case single => exact h.single.sublist (List.filter_sublist.map _)
  case last =>
    intro hopen d hd
    rw [CallbackService.hire, List.lookup_append, Option.or_eq_none_iff] at hd
    obtain ⟨hd, hne⟩ := hd
    have hne : d ≠ c := by
      rintro rfl
      simp at hne
    intro j v hj hv hvc
    rw [CallbackService.hire, lookup_without_of_ne hne]
    rcases hget hv with hv | ⟨rfl, rfl⟩
    · exact h.last hopen d hd j v (hlt hv) hv hvc
    · exact absurd hvc hne.symm

theorem prune (h : s.InLine) : s.prune.InLine where
  apart := h.apart
  done := h.done
  behind := h.behind
  covered := h.covered
  active := h.active
  isOpen := h.isOpen
  retired c p hp := h.retired c p (List.mem_filter.mp hp).1
  single := h.single.sublist (List.filter_sublist.map _)
  last hopen c hc := by
    intro j v hj hv hvc
    refine or_iff_not_imp_left.mpr fun hrun => ?_
    obtain ⟨p, hp, hle⟩ := (h.last hopen c hc j v hj hv hvc).resolve_left hrun
    refine ⟨p, ?_, hle⟩
    refine lookup_filter hp ?_ h.single
    obtain ⟨u, hu, huc⟩ := h.retired c p (mem_of_lookup hp)
    rw [Bool.not_eq_true', Bool.eq_false_iff]
    intro hf
    exact hrun (h.before hu (by simpa [isFinished, hu] using hf) hv hle (hvc.trans huc.symm))

theorem alike (hsame : s'.workers.map Worker.shut = s.workers.map Worker.shut) {v : Worker τ}
    (hv : s'.workers[i]? = some v) : ∃ u, s.workers[i]? = some u ∧ v.shut = u.shut := by
  have hi : (s'.workers.map Worker.shut)[i]? = some v.shut := by rw [List.getElem?_map, hv]; rfl
  rw [hsame, List.getElem?_map] at hi
  obtain ⟨u, hu, huv⟩ := Option.map_eq_some_iff.mp hi
  exact ⟨u, hu, huv.symm⟩

theorem shut (h : s.InLine) (hsame : s'.workers.map Worker.shut = s.workers.map Worker.shut)
    (hclosed : s'.closed = s.closed)
    (hactive : ∀ c i, (c, i) ∈ s'.active → (c, i) ∈ s.active ∧ s'.workers[i]? = s.workers[i]?)
    (hopen : ∀ (i : Nat) (v : Worker τ), s'.workers[i]? = some v → v.isOpen →
      (v.context, i) ∈ s'.active)
    (hretired : ∀ c p, (c, p) ∈ s'.retired → (c, p) ∈ s.active ∨ (c, p) ∈ s.retired)
    (hsingle : (s'.retired.map Prod.fst).Nodup)
    (hlast : s.closed = false → ∀ c, s'.active.lookup c = none →
      s.Covers s.workers.length c (s'.retired.lookup c)) : s'.InLine := by
  have hold {j : Nat} {v : Worker τ} (hv : s'.workers[j]? = some v) :
      ∃ u, s.workers[j]? = some u ∧ v.context = u.context ∧ v.queue = u.queue ∧
        v.phase = u.phase ∧ v.isFinished = u.isFinished ∧ v.isWaiting = u.isWaiting := by
    obtain ⟨u, hu, huv⟩ := alike hsame hv
    obtain ⟨hc, hq, -, hp⟩ := Worker.mk.injEq .. ▸ huv
    exact ⟨u, hu, hc, hq, hp, by simp only [Worker.isFinished, hp],
      by simp only [Worker.isWaiting, hp]⟩
  have ha : s.Advances s' := by
    refine ⟨by simpa using congrArg List.length hsame, fun j v hv => ?_⟩
    obtain ⟨u, hu, hcu, -, hpu, hfu, -⟩ := hold hv
    exact ⟨u, hu, hcu, fun hf => hfu.trans hf, fun _ => hpu⟩
  refine ⟨?apart, ?done, ha.behind h, ha.covered h, ?active, hopen, ?retired, hsingle, ?last⟩
  case apart =>
    intro i j v w hij hv hw hvw
    obtain ⟨v₀, hv₀, hvc, -, -, hvf, -⟩ := hold hv
    obtain ⟨w₀, hw₀, hwc, -, -, -, hww⟩ := hold hw
    rw [hvf, hww]
    exact h.apart i j v₀ w₀ hij hv₀ hw₀ (by rw [← hvc, hvw, hwc])
  case done =>
    intro i w hw hf
    obtain ⟨u, hu, hcu, hqu, -, hfu, -⟩ := hold hw
    obtain ⟨hqueue, hshut⟩ := h.done i u hu (hfu ▸ hf)
    refine ⟨hqu.trans hqueue, Bool.eq_false_iff.mpr fun ho => ?_⟩
    obtain ⟨hi, he⟩ := hactive _ _ (hopen i w hw ho)
    obtain ⟨x, hx, -, hxo, -⟩ := h.active _ _ hi
    rw [hu] at hx
    cases hx
    rw [hshut] at hxo
    cases hxo
  case active =>
    intro c i hi
    obtain ⟨hi, he⟩ := hactive c i hi
    obtain ⟨w, hw, hwc, ho, hl⟩ := h.active c i hi
    refine ⟨w, he ▸ hw, hwc, ho, fun j v hj hv => ?_⟩
    obtain ⟨u, hu, hcu, -⟩ := hold hv
    exact hcu ▸ hl j u hj hu
  case retired =>
    intro c p hp
    have hheld : ∃ u, s.workers[p]? = some u ∧ u.context = c := by
      rcases hretired c p hp with hp | hp
      · obtain ⟨u, hu, huc, -⟩ := h.active c p hp
        exact ⟨u, hu, huc⟩
      · exact h.retired c p hp
    obtain ⟨u, hu, huc⟩ := hheld
    obtain ⟨v, hv, hvc⟩ := ha.exists_worker hu
    exact ⟨v, hv, hvc.trans huc⟩
  case last =>
    intro hopen c hc
    rw [ha.length]
    exact ha.covers (hlast (hclosed ▸ hopen) c hc)

theorem release (h : s.InLine) (c : Nat) : (s.release c).InLine := by
  have hp := h.prune
  unfold CallbackService.release
  dsimp only
  split
  · exact hp
  · next i ha =>
    obtain ⟨w, hw, hwc, -, hlast⟩ := hp.lookup_active ha
    have hshut (j : Nat) (hj : i ≠ j) :
        (s.prune.workers.modify i Worker.shut)[j]? = s.prune.workers[j]? := by
      rw [List.getElem?_modify]
      simp [hj]
    refine hp.shut ?_ rfl (fun d j hj => ?_) (fun j v hv ho => ?_) (fun d p hd => ?_) ?_
      fun hopen d hd => ?_
    · exact map_shut_closeWorker i
    · obtain ⟨hj, hne⟩ := List.mem_filter.mp hj
      refine ⟨hj, hshut j ?_⟩
      rintro rfl
      obtain ⟨u, hu, huc, -⟩ := hp.active d i hj
      rw [hw] at hu
      cases hu
      simp [← huc, hwc] at hne
    · by_cases hij : i = j
      · subst hij
        rw [closeWorker, List.getElem?_modify_eq, hw] at hv
        cases hv
        cases ho
      · rw [closeWorker, hshut j hij] at hv
        have hmem := hp.isOpen j v hv ho
        refine List.mem_filter.mpr ⟨hmem, decide_eq_true fun hvc => ?_⟩
        rcases Nat.lt_or_gt_of_ne hij with hlt | hlt
        · exact hlast j v hlt hv hvc
        · obtain ⟨-, -, -, -, hl⟩ := hp.active _ _ hmem
          exact hl i w hlt hw (hwc.trans hvc.symm)
    · rcases List.mem_append.mp hd with hd | hd
      · exact .inr (List.mem_filter.mp hd).1
      · cases List.mem_singleton.mp hd
        exact .inl (mem_of_lookup ha)
    · rw [List.map_append, List.nodup_append]
      refine ⟨hp.single.sublist (List.filter_sublist.map _), by simp, ?_⟩
      simp [without]
    · by_cases hdc : d = c
      · subst hdc
        rw [List.lookup_append, lookup_without_self, Option.none_or, List.lookup_cons_self]
        refine fun j v hj hv hvc => .inr ⟨i, rfl, Nat.le_of_not_lt fun hij => ?_⟩
        exact hlast j v hij hv hvc
      · rw [List.lookup_append, lookup_without_of_ne hdc, List.lookup_singleton, if_neg (by simpa)]
        rw [lookup_without_of_ne hdc] at hd
        rw [Option.or_none]
        exact hp.last hopen d hd

theorem dropWorkers (h : s.InLine) (hclosed : s.closed) : s.dropWorkers.InLine := by
  refine h.shut ?_ rfl (fun c i hi => ?_) (fun i v hv ho => ?_) (fun c p hp => ?_) List.nodup_nil
    (fun hopen => ?_)
  · exact map_shut_dropWorkers
  · cases hi
  · rw [CallbackService.dropWorkers, List.getElem?_map] at hv
    obtain ⟨u, -, rfl⟩ := Option.map_eq_some_iff.mp hv
    cases ho
  · cases hp
  · rw [hclosed] at hopen
    cases hopen

theorem run (h : s.InLine) {c : Nat} {task : τ} (hm : s.step (.run c task) = some (s', more)) :
    (s.closed ∧ s' = s ∧ more = [.rejected c task (.error shutDown)]) ∨
      s.closed = false ∧ more = [.accepted c task] ∧ ∃ u i w, u.InLine ∧
        (u = s ∨ u = s.hire c) ∧ u.workers[i]? = some w ∧ w.context = c ∧ w.isFinished = false ∧
        (∀ (j : Nat) (v : Worker τ), i < j → u.workers[j]? = some v → v.context ≠ c) ∧
        s' = { u with workers := u.workers.set i (w.enqueue task) } := by
  cases hclosed : s.closed with
  | true =>
    simp only [CallbackService.step, CallbackService.run?, hclosed, if_true] at hm
    cases hm
    exact .inl ⟨rfl, rfl, rfl⟩
  | false =>
    have hhired : ∃ u i, s.worker c = (i, u) ∧ u.InLine ∧ (u = s ∨ u = s.hire c) ∧
        u.active.lookup c = some i := by
      unfold CallbackService.worker
      split
      · next i hi => exact ⟨s, i, rfl, h, .inl rfl, hi⟩
      · next hnone =>
        refine ⟨s.hire c, _, rfl, h.hire hclosed hnone, .inr rfl, ?_⟩
        rw [CallbackService.hire, List.lookup_append, hnone, Option.none_or, List.lookup_cons_self]
    obtain ⟨u, i, hu, hline, hcase, hi⟩ := hhired
    obtain ⟨w, hw, hc, hf, hlast⟩ := hline.lookup_active hi
    have hrun : u.isFinished i = false := by rw [CallbackService.isFinished, hw]; exact hf
    simp [CallbackService.step, CallbackService.run?, hclosed, hu, CallbackService.enqueue?,
      hrun, List.modify_eq_set_getElem?, hw] at hm
    exact .inr ⟨rfl, hm.2.symm, u, i, w, hline, hcase, hw, hc, hf, hlast, hm.1.symm⟩

theorem step (h : s.InLine) {m : CallbackMove τ} (hm : s.step m = some (s', more)) :
    s'.InLine := by
  cases m with
  | run c task =>
    rcases h.run hm with ⟨-, rfl, -⟩ | ⟨-, -, u, i, w, hu, -, hw, -, hf, -, rfl⟩
    · exact h
    · exact hu.enqueue hw hf task
  | release c =>
    cases hm
    exact h.release c
  | close =>
    cases hm
    exact { h with last := fun hopen => nomatch hopen }
  | dropWorkers =>
    obtain ⟨hclosed, rfl, -⟩ := step_dropWorkers hm
    exact h.dropWorkers hclosed
  | proceed i how => exact h.proceed hm

end InLine

end CallbackService

end PubSub
