import Mathlib.Algebra.BigOperators.Group.List.Basic
import Mathlib.Algebra.GroupWithZero.Nat
import PubSub.Script.Promise

/-! # How deep scripts nest

Plays are sequences of actions on a world, and a panic ends them. A routine that
is kept for later may run inside any other one, but it is kept once and runs once.
The steps that are kept therefore bound how deep a play gets: plays that may go as
deep as there are steps do the same, however much deeper they could go.
-/

namespace PubSub

namespace PromiseScript

namespace Play

variable {σ α β : Type}

theorem run_bind (x : ExceptT String (StateM σ) α) (f : α → ExceptT String (StateM σ) β) (s : σ) :
    (x >>= f).run.run s =
      match x.run.run s with
      | (.ok a, s) => (f a).run.run s
      | (.error text, s) => (.error text, s) := by
  change (ExceptT.bindCont f (x.run.run s).1).run (x.run.run s).2 = _
  rcases x.run.run s with ⟨answer, t⟩
  cases answer <;> rfl

theorem run_tryCatch (x : ExceptT String (StateM σ) α) (f : String → ExceptT String (StateM σ) α)
    (s : σ) :
    (tryCatch x f).run.run s =
      match x.run.run s with
      | (.ok a, s) => (.ok a, s)
      | (.error text, s) => (f text).run.run s := by
  show (ExceptT.tryCatch x f).run.run s = _
  rcases h : x.run.run s with ⟨answer, t⟩
  cases answer with
  | ok a =>
    simp_all [ExceptT.tryCatch, ExceptT.run, ExceptT.mk, StateT.run, bind, StateT.bind]
    rfl
  | error text =>
    simp_all [ExceptT.tryCatch, ExceptT.run, ExceptT.mk, StateT.run, bind, StateT.bind]

/-- A panic that is caught leaves what was done before it. -/
theorem run_caught (x : ExceptT String (StateM σ) Unit) (s : σ) :
    ∃ how : Outcome,
      (tryCatch (do x; pure (.ok ())) fun text => pure (.error (.callback text)) :
        ExceptT String (StateM σ) Outcome).run.run s = (.ok how, (x.run.run s).2) := by
  rw [run_tryCatch, run_bind]
  rcases x.run.run s with ⟨text | _, t⟩
  · exact ⟨.error (.callback text), rfl⟩
  · exact ⟨.ok (), rfl⟩

theorem run_bind_pure_snd (x : ExceptT String (StateM σ) α) (b : β) (s : σ) :
    ((x >>= fun _ => pure b).run.run s).2 = (x.run.run s).2 := by
  rw [run_bind]
  split <;> simp_all
  rfl

@[simp]
theorem run_get (s : σ) : (get : ExceptT String (StateM σ) σ).run.run s = (.ok s, s) := rfl

@[simp]
theorem run_set (t s : σ) :
    (set t : ExceptT String (StateM σ) PUnit).run.run s = (.ok ⟨⟩, t) := rfl

@[simp]
theorem run_modify (f : σ → σ) (s : σ) :
    (modify f : ExceptT String (StateM σ) PUnit).run.run s = (.ok ⟨⟩, f s) := rfl

end Play

theorem World.getElem?_of_promise? {w : World} {p i : Nat} {d : Dispatch}
    {cell : Promise Int Routine} (h : w.promise? p = some (i, d, cell)) :
    w.promises[i]? = some (d, cell) := by
  simp only [World.promise?, Option.bind_eq_bind, Option.bind_eq_some_iff, Prod.exists] at h
  obtain ⟨j, -, d', cell', hj, h⟩ := h
  cases h
  exact hj

theorem Step.size_pos (step : Step) : 0 < step.size := by
  cases step <;> simp only [Step.size] <;> omega

/-- The steps of the listener that a promise keeps. -/
def keptSteps : Promise Int Routine → Nat
  | .pending (some r) => sizes r.next
  | .pending none | .completed _ => 0

/-- The steps of all routines that are kept for later. -/
def World.kept (w : World) : Nat :=
  (w.promises.map fun x => keptSteps x.2).sum + (w.queue.map fun c => sizes c.routine.next).sum

theorem keptSteps_complete {cell cell' : Promise Int Routine} {result : Except ClientError Int}
    {l : Option Routine} (h : cell.complete result = .ok (cell', l)) :
    keptSteps cell' + (l.toList.map fun r => sizes r.next).sum = keptSteps cell := by
  rcases cell with (_ | _) | _ <;> cases h <;> simp [keptSteps]

theorem keptSteps_attach {cell cell' : Promise Int Routine} {r : Routine}
    {result : Option (Except ClientError Int)} (h : cell.attach r = .ok (cell', result)) :
    keptSteps cell' + (result.toList.map fun _ => sizes r.next).sum =
      keptSteps cell + sizes r.next := by
  rcases cell with (_ | _) | (_ | _) <;> cases h <;> simp [keptSteps]

theorem World.kept_setPromise {w : World} {i : Nat} {d : Dispatch}
    {cell : Promise Int Routine} (h : w.promises[i]? = some (d, cell))
    (cell' : Promise Int Routine) :
    (w.setPromise i d cell').kept + keptSteps cell = w.kept + keptSteps cell' := by
  obtain ⟨hi, hget⟩ := List.getElem?_eq_some_iff.mp h
  have hset (cell : Promise Int Routine) :
      ((w.promises.set i (d, cell)).map fun x => keptSteps x.2).sum =
        (((w.promises.map fun x => keptSteps x.2).take i).sum + keptSteps cell) +
          ((w.promises.map fun x => keptSteps x.2).drop (i + 1)).sum := by
    rw [List.map_set, List.sum_set, if_pos (by simpa using hi)]
  have hsame := hset cell
  rw [← hget, List.set_getElem_self] at hsame
  simp only [World.kept, World.setPromise, hset cell', hsame]
  omega

/-- Two plays do the same in a world where `n` steps are enough for those that are kept and some
more, and no more are kept afterwards. -/
def Agree {α : Type} (n more : Nat) (x y : Play α) : Prop :=
  ∀ w, w.kept + more ≤ n →
    x.run.run w = y.run.run w ∧ (x.run.run w).2.kept ≤ w.kept + more

namespace Agree

variable {α β : Type} {n a b : Nat} {x y : Play α} {f g : α → Play β}
  {play play' : Step → Play Answer}

theorem pure (v : α) : Agree n 0 (Pure.pure v : Play α) (Pure.pure v) :=
  fun _ _ => ⟨rfl, Nat.le_refl _⟩

theorem throw (text : String) :
    Agree n 0 (MonadExcept.throw text : Play α) (MonadExcept.throw text) :=
  fun _ _ => ⟨rfl, Nat.le_refl _⟩

theorem change {k : World → World} (h : ∀ w, (k w).kept = w.kept) :
    Agree n 0 (modify k : Play PUnit) (modify k) :=
  fun w _ => ⟨rfl, Nat.le_of_eq (h w)⟩

theorem mono (h : Agree n a x y) (hab : a ≤ b) : Agree n b x y := by
  intro w hw
  obtain ⟨heq, hkept⟩ := h w (by omega)
  exact ⟨heq, by omega⟩

theorem bind (hx : Agree n a x y) (hf : ∀ v, Agree n b (f v) (g v)) :
    Agree n (a + b) (x >>= f) (y >>= g) := by
  intro w hw
  obtain ⟨heq, hkept⟩ := hx w (by omega)
  rw [Play.run_bind, Play.run_bind, ← heq]
  rcases hrun : x.run.run w with ⟨_ | v, u⟩
  · rw [hrun] at hkept
    exact ⟨rfl, by simp only at hkept ⊢; omega⟩
  · rw [hrun] at hkept
    obtain ⟨heq', hkept'⟩ := hf v u (by simp only at hkept; omega)
    exact ⟨heq', by simp only at hkept hkept' ⊢; omega⟩

theorem caught (hx : Agree n a x y) (handle : String → α) :
    Agree n a (tryCatch x fun text => Pure.pure (handle text))
      (tryCatch y fun text => Pure.pure (handle text)) := by
  intro w hw
  obtain ⟨heq, hkept⟩ := hx w hw
  rw [Play.run_tryCatch, Play.run_tryCatch, ← heq]
  rcases hrun : x.run.run w with ⟨_ | _, u⟩ <;> rw [hrun] at hkept <;> exact ⟨rfl, hkept⟩

theorem andThen (hx : Agree n 0 x y) (hf : ∀ v, Agree n a (f v) (g v)) :
    Agree n a (x >>= f) (y >>= g) := by
  have h := hx.bind hf
  rwa [Nat.zero_add] at h

theorem get_bind {f g : World → Play α}
    (h : ∀ w, w.kept + a ≤ n → (f w).run.run w = (g w).run.run w ∧
      ((f w).run.run w).2.kept ≤ w.kept + a) : Agree n a (get >>= f) (get >>= g) := by
  intro w hw
  rw [Play.run_bind, Play.run_bind, Play.run_get]
  exact h w hw

theorem modify_bind {k : World → World} {f g : PUnit → Play β} {w : World}
    (h : Agree n b (f ⟨⟩) (g ⟨⟩)) (hk : (k w).kept + b ≤ w.kept + a) (hw : w.kept + a ≤ n) :
    (modify k >>= f).run.run w = (modify k >>= g).run.run w ∧
      ((modify k >>= f).run.run w).2.kept ≤ w.kept + a := by
  obtain ⟨heq, hkept⟩ := h (k w) (by omega)
  rw [Play.run_bind, Play.run_bind, Play.run_modify]
  exact ⟨heq, Nat.le_trans hkept hk⟩

theorem record (e : Event) : Agree n 0 (PromiseScript.record e) (PromiseScript.record e) :=
  change fun _ => rfl

theorem settle (c : Callback) (how : Outcome) : Agree n 0 (c.settle how) (c.settle how) := by
  have htell (told : Told) : Agree n 0 (told.tell how) (told.tell how) := by
    unfold Told.tell
    split
    · exact pure _
    · exact record _
    · exact record _
  unfold Callback.settle
  split
  · exact pure _
  · split
    · exact htell _
    · exact pure _
    · exact pure _

theorem submit (c : Callback) :
    Agree n (sizes c.routine.next) (PromiseScript.submit c) (PromiseScript.submit c) := by
  refine get_bind fun w hw => ?_
  split
  · exact (settle c (.error rejected)).mono (Nat.zero_le _) w hw
  · refine ⟨rfl, ?_⟩
    simp only [Play.run_set, World.kept, List.map_append, List.sum_append, List.map_singleton,
      List.sum_singleton]
    omega

variable (hplay : ∀ step, Agree n step.size (play step) (play' step))
include hplay

theorem routine (r : Routine) : Agree n (sizes r.next) (r.perform play) (r.perform play') := by
  have hnext (steps : List Step) : Agree n (sizes steps)
      (forIn steps PUnit.unit fun step _ => do
        let answer ← play step
        PromiseScript.record (.answered answer)
        Pure.pure (ForInStep.yield PUnit.unit))
      (forIn steps PUnit.unit fun step _ => do
        let answer ← play' step
        PromiseScript.record (.answered answer)
        Pure.pure (ForInStep.yield PUnit.unit)) := by
    induction steps with
    | nil => exact pure _
    | cons step steps ih =>
      rw [List.forIn_cons, List.forIn_cons]
      refine bind (bind (hplay step) fun answer => andThen (record _) fun _ => pure _) fun out => ?_
      cases out with
      | done => exact (pure _).mono (Nat.zero_le _)
      | yield => exact ih
  refine bind (b := 0) (hnext r.next) fun _ => ?_
  cases r.panic with
  | none => exact pure _
  | some text => exact throw text

theorem callback (c : Callback) :
    Agree n (sizes c.routine.next) (c.perform play) (c.perform play') := by
  refine andThen ?_ fun _ => routine hplay c.routine
  unfold Callback.begin
  split <;> exact record _

theorem deliver (i : Nat) (d : Dispatch) (r : Routine) (result : Except ClientError Int) :
    Agree n (sizes r.next) (PromiseScript.deliver play i d r result)
      (PromiseScript.deliver play' i d r result) := by
  cases d with
  | direct => exact callback hplay ⟨some (i, result), r, none⟩
  | queued hook => exact submit ⟨some (i, result), r, completionFor hook⟩

theorem runCallback (c : Callback) :
    Agree n (sizes c.routine.next) (PromiseScript.runCallback play c)
      (PromiseScript.runCallback play' c) := by
  have hperform : Agree n (sizes c.routine.next)
      (do c.perform play; Pure.pure (.ok ()) : Play Outcome)
      (do c.perform play'; Pure.pure (.ok ())) := bind (callback hplay c) fun _ => pure _
  exact bind (hperform.caught _) fun how => settle c how

/-- Callbacks that are run are kept no longer. -/
theorem runQueue (count done : Nat) :
    Agree n 0 (PromiseScript.runQueue play count done)
      (PromiseScript.runQueue play' count done) := by
  induction count generalizing done with
  | zero => exact pure _
  | succ count ih =>
    refine get_bind fun w hw => ?_
    split
    · exact ⟨rfl, Nat.le_refl _⟩
    · next c rest hq =>
      have hkept : w.kept = { w with queue := rest }.kept + sizes c.routine.next := by
        simp only [World.kept, hq, List.map_cons, List.sum_cons]
        omega
      have hrest := bind (runCallback hplay c) fun _ => ih (done + 1)
      obtain ⟨heq, hafter⟩ := hrest { w with queue := rest } (by omega)
      rw [Play.run_bind, Play.run_bind]
      exact ⟨heq, by simp only [Play.run_set]; omega⟩

theorem complete (p : Nat) (result : Except ClientError Int) :
    Agree n 0 (PromiseScript.complete play p result) (PromiseScript.complete play' p result) := by
  refine get_bind fun w hw => ?_
  cases hp : w.promise? p with
  | none => exact pure Answer.refused w hw
  | some x =>
    obtain ⟨i, d, cell⟩ := x
    have hset := World.kept_setPromise (World.getElem?_of_promise? hp)
    dsimp only
    cases hc : cell.complete result with
    | error e => exact pure (Answer.failed e) w hw
    | ok y =>
      obtain ⟨cell', l⟩ := y
      have hkept := hset cell'
      have hcell := keptSteps_complete hc
      cases l with
      | none =>
        refine modify_bind (pure _) ?_ hw
        simp only [Option.toList_none, List.map_nil, List.sum_nil] at hcell ⊢
        omega
      | some r =>
        refine modify_bind (bind (b := 0) (deliver hplay i d r result) fun _ => pure _) ?_ hw
        simp only [Option.toList_some, List.map_singleton,
          List.sum_singleton] at hcell ⊢
        omega

theorem listen (p : Nat) (r : Routine) :
    Agree n (sizes r.next) (PromiseScript.listen play p r) (PromiseScript.listen play' p r) := by
  refine get_bind fun w hw => ?_
  cases hp : w.promise? p with
  | none => exact (pure Answer.refused).mono (Nat.zero_le _) w hw
  | some x =>
    obtain ⟨i, d, cell⟩ := x
    have hset := World.kept_setPromise (World.getElem?_of_promise? hp)
    dsimp only
    cases hc : cell.attach r with
    | error e => exact (pure (Answer.failed e)).mono (Nat.zero_le _) w hw
    | ok y =>
      obtain ⟨cell', result⟩ := y
      have hkept := hset cell'
      have hcell := keptSteps_attach hc
      cases result with
      | none =>
        refine modify_bind (pure _) ?_ hw
        simp only [Option.toList_none, List.map_nil, List.sum_nil] at hcell ⊢
        omega
      | some result =>
        refine modify_bind (bind (b := 0) (deliver hplay i d r result) fun _ => pure _) ?_ hw
        simp only [Option.toList_some, List.map_singleton,
          List.sum_singleton] at hcell ⊢
        omega

theorem perform (step : Step) :
    Agree n (step.size - 1) (PromiseScript.perform play step)
      (PromiseScript.perform play' step) := by
  have hhandle (i : Nat) : Agree n 0 (addHandle i) (addHandle i) := fun _ _ => ⟨rfl, Nat.le_refl _⟩
  have hsubmit (c : Callback) : Agree n (sizes c.routine.next)
      (do PromiseScript.submit c; Pure.pure .ok : Play Answer)
      (do PromiseScript.submit c; Pure.pure .ok) := bind (submit c) fun _ => pure _
  cases step with
  | new d =>
    refine get_bind fun w hw => ⟨rfl, Nat.le_of_eq ?_⟩
    show World.kept { w with
      promises := w.promises ++ [(d, Promise.new)]
      handles := w.handles ++ [w.promises.length] } = w.kept
    simp [World.kept, keptSteps, Promise.new]
  | clone p =>
    refine get_bind fun w hw => ?_
    split
    · exact pure _ w hw
    · exact hhandle _ w hw
  | complete p result => exact complete hplay p result
  | isDone p =>
    refine get_bind fun w hw => ?_
    split <;> exact pure _ w hw
  | inspect p =>
    refine get_bind fun w hw => ?_
    split <;> exact pure _ w hw
  | inspectDispatch hook => exact pure _
  | same p q =>
    refine get_bind fun w hw => ?_
    split <;> exact pure _ w hw
  | listen p label next panic =>
    exact (listen hplay p ⟨label, next, panic⟩).mono (by simp [Step.size])
  | dispatch label hook next panic =>
    exact (hsubmit ⟨none, ⟨label, next, panic⟩, completionFor hook⟩).mono (by simp [Step.size])
  | dispatchWith label next panic =>
    exact (hsubmit ⟨none, ⟨label, next, panic⟩, some (.listened (.reported label))⟩).mono
      (by simp [Step.size])
  | reject on => exact andThen (change fun _ => rfl) fun _ => pure _
  | run count => exact andThen (runQueue hplay count 0) fun _ => pure _
  | unknown => exact pure _

omit hplay in
theorem play_depth {n d d' : Nat} (hd : n ≤ d) (hd' : n ≤ d') (step : Step) :
    Agree n step.size (PromiseScript.play d step) (PromiseScript.play d' step) := by
  induction n generalizing d d' step with
  | zero =>
    have hpos := step.size_pos
    exact fun w hw => by omega
  | succ n ih =>
    obtain ⟨d, rfl⟩ := Nat.exists_eq_add_of_le' (Nat.le_of_add_left_le hd)
    obtain ⟨d', rfl⟩ := Nat.exists_eq_add_of_le' (Nat.le_of_add_left_le hd')
    intro w hw
    have hpos := step.size_pos
    have hless : n ≤ d ∧ n ≤ d' := by omega
    obtain ⟨heq, hkept⟩ := perform (ih hless.1 hless.2) step w (by omega)
    exact ⟨heq, Nat.le_trans hkept (by omega)⟩

end Agree

end PromiseScript

end PubSub
