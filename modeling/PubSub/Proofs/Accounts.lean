import PubSub.Proofs.Deeds
import PubSub.Proofs.Nesting

/-! # Accounts of scripts

What happens to promises is told beside the world of a script. An accounted play
tells every deed where the play does it, and leaves the world to the play: without
its history it is the play again, with the same answers, events and panics.
The listeners that it tells of are those that hear a result in the log.
-/

namespace PubSub

namespace PromiseScript

/-- A world, and what has happened to its promises in order. -/
structure Account extends World where
  history : List (Nat × Deed) := []

def Account.note (a : Account) (i : Nat) (deed : Deed) : Account :=
  { a with history := a.history ++ [(i, deed)] }

/-- A play that tells what happens to promises. -/
abbrev Telling := ExceptT String (StateM Account)

namespace Telling

/-- A play in which nothing happens to promises. -/
def quietly {α : Type} (x : Play α) : Telling α :=
  ExceptT.mk fun a =>
    let (answer, w) := x.run.run a.toWorld
    (answer, { a with toWorld := w })

/-- Tells something of the promise whose listener a callback runs. -/
def note (c : Callback) (deed : Routine → Except ClientError Int → Deed) : Telling Unit :=
  match c.heard with
  | some (i, result) => modify fun a => a.note i (deed c.routine result)
  | none => pure ()

/-- Tells of the failure of a callback that has a hook for it. -/
def noteHook (c : Callback) (how : Outcome) : Telling Unit :=
  match c.completion, how with
  | some (.pending (some .hook)), .error e => note c fun _ _ => .hooked e
  | _, _ => pure ()

def settle (c : Callback) (how : Outcome) : Telling Unit := do
  noteHook c how
  quietly (c.settle how)

def submit (c : Callback) : Telling Unit := do
  let a ← get
  if a.rejecting then
    note c .turnedDown
    settle c (.error rejected)
  else set { a with queue := a.queue ++ [c] }

def routine (play : Step → Telling Answer) (r : Routine) : Telling Unit := do
  for step in r.next do
    let answer ← play step
    quietly (record (.answered answer))
  match r.panic with
  | some text => throw text
  | none => pure ()

def callback (play : Step → Telling Answer) (c : Callback) : Telling Unit := do
  note c .invoked
  quietly c.begin
  routine play c.routine

def deliver (play : Step → Telling Answer) (i : Nat) (dispatch : Dispatch) (r : Routine)
    (result : Except ClientError Int) : Telling Unit :=
  match dispatch with
  | .direct => callback play ⟨some (i, result), r, none⟩
  | .queued hook => do
    let c : Callback := ⟨some (i, result), r, completionFor hook⟩
    note c .handed
    submit c

def runCallback (play : Step → Telling Answer) (c : Callback) : Telling Unit := do
  let how : Outcome ← tryCatch (do callback play c; pure (.ok ()))
    fun text => pure (.error (.callback text))
  note c fun _ _ => .ended how
  settle c how

def runQueue (play : Step → Telling Answer) : Nat → Nat → Telling Nat
  | 0, done => pure done
  | count + 1, done => do
    let a ← get
    match a.queue with
    | [] => pure done
    | c :: rest => do
      set { a with queue := rest }
      runCallback play c
      runQueue play count (done + 1)

def complete (play : Step → Telling Answer) (p : Nat) (result : Except ClientError Int) :
    Telling Answer := do
  match (← get).promise? p with
  | none => pure .refused
  | some (i, dispatch, promise) =>
    match promise.complete result with
    | .error e => do
      modify fun a => a.note i (.completed result (some e))
      pure (.failed e)
    | .ok (promise, listener) => do
      quietly (modify fun w => w.setPromise i dispatch promise)
      modify fun a => a.note i (.completed result none)
      match listener with
      | none => pure .ok
      | some r => do
        deliver play i dispatch r result
        pure .ok

def listen (play : Step → Telling Answer) (p : Nat) (r : Routine) : Telling Answer := do
  match (← get).promise? p with
  | none => pure .refused
  | some (i, dispatch, promise) =>
    match promise.attach r with
    | .error e => do
      modify fun a => a.note i (.attached r (some e))
      pure (.failed e)
    | .ok (promise, result) => do
      quietly (modify fun w => w.setPromise i dispatch promise)
      modify fun a => a.note i (.attached r none)
      match result with
      | none => pure .ok
      | some result => do
        deliver play i dispatch r result
        pure .ok

/-- Steps that do nothing to a promise play no other steps either. -/
def perform (play : Step → Telling Answer) : Step → Telling Answer
  | .complete p result => complete play p result
  | .listen p label next panic => listen play p ⟨label, next, panic⟩
  | .run count => do
    let done ← runQueue play count 0
    pure (.number done)
  | step => quietly (PromiseScript.perform (fun _ => pure .refused) step)

def play : (depth : Nat) → Step → Telling Answer
  | 0, _ => pure .refused
  | depth + 1, step => perform (play depth) step

end Telling

namespace Account

/-- Plays one step of a script and tells what it does. -/
def turn (depth : Nat) (a : Account) (step : Step) : Turn × Account :=
  let (answer, after) := (Telling.play depth step).run.run { a with log := [] }
  (⟨answer, after.log, after.queue.length⟩, after)

def turns (depth : Nat) (a : Account) : List Step → List Turn × Account
  | [] => ([], a)
  | step :: rest =>
    let (t, a) := turn depth a step
    let (later, a) := turns depth a rest
    (t :: later, a)

end Account

def Event.heard? : Event → Option (Json × Except ClientError Int)
  | .heard label result => some (label, result)
  | _ => none

/-- What listeners heard, by the log. -/
def heardIn (log : List Event) : List (Json × Except ClientError Int) := log.filterMap Event.heard?

/-- What listeners were told when they were invoked. -/
def toldIn (history : List (Nat × Deed)) : List (Json × Except ClientError Int) :=
  history.filterMap fun x => x.2.invoked?.map fun (r, result) => (r.label, result)

namespace Callback

variable (c : Callback) (w : World)

/-- At the end of a callback nobody hears a result. Without a report, nothing is recorded of it but
what its hook is told. -/
theorem run_settle (how : Outcome) :
    ∃ events, (c.settle how).run.run w = (.ok ⟨⟩, { w with log := w.log ++ events }) ∧
      heardIn events = [] ∧
      ∀ hook, c.completion = completionFor hook → ∀ e ∈ events, ∃ cause, e = .hookTold cause := by
  have hnone : (pure ⟨⟩ : Play PUnit).run.run w = (.ok ⟨⟩, { w with log := w.log ++ [] }) := by
    rw [List.append_nil]
    rfl
  unfold settle
  split
  · exact ⟨[], hnone, rfl, fun _ _ => nofun⟩
  · next completion hc =>
    split
    · next told hcomplete =>
      rcases told with _ | label
      · rcases how with e | _
        · exact ⟨[.hookTold e], rfl, rfl, fun _ _ f hf => ⟨e, List.mem_singleton.mp hf⟩⟩
        · exact ⟨[], hnone, rfl, fun _ _ => nofun⟩
      · refine ⟨[.finished label how], rfl, rfl, fun hook hcompletion => ?_⟩
        cases hook <;> simp only [hc, completionFor] at hcompletion <;> cases hcompletion
        cases hcomplete
    · exact ⟨[], hnone, rfl, fun _ _ => nofun⟩
    · exact ⟨[], hnone, rfl, fun _ _ => nofun⟩

/-- A callback that is submitted is not run. -/
theorem run_submit :
    ∃ v events, (submit c).run.run w = (.ok ⟨⟩, v) ∧ v.log = w.log ++ events ∧
      heardIn events = [] ∧
      ∀ hook, c.completion = completionFor hook → ∀ e ∈ events, ∃ cause, e = .hookTold cause := by
  obtain ⟨events, hrun, hheard, hhook⟩ := c.run_settle w (.error rejected)
  rw [submit, Play.run_bind, Play.run_get]
  dsimp only
  split
  · exact ⟨_, events, hrun, rfl, hheard, hhook⟩
  · exact ⟨_, [], rfl, (List.append_nil _).symm, rfl, fun _ _ => nofun⟩

end Callback

/-- From an account, a telling does to the world what a play does, and it tells of the listeners
that hear. -/
structure TellsFrom {α : Type} (a : Account) (x : Telling α) (y : Play α) : Prop where
  erased : Prod.map id Account.toWorld (x.run.run a) = y.run.run a.toWorld
  heard : ∃ events deeds, (x.run.run a).2.log = a.log ++ events ∧
    (x.run.run a).2.history = a.history ++ deeds ∧ heardIn events = toldIn deeds

def Tells {α : Type} (x : Telling α) (y : Play α) : Prop := ∀ a, TellsFrom a x y

namespace Tells

variable {α β : Type} {x : Telling α} {y : Play α} {f : α → Telling β} {g : α → Play β}
  {play : Step → Telling Answer} {play' : Step → Play Answer}

theorem pure (v : α) : Tells (Pure.pure v : Telling α) (Pure.pure v) :=
  fun _ => ⟨rfl, [], [], (List.append_nil _).symm, (List.append_nil _).symm, rfl⟩

theorem throw (text : String) :
    Tells (MonadExcept.throw text : Telling α) (MonadExcept.throw text) :=
  fun _ => ⟨rfl, [], [], (List.append_nil _).symm, (List.append_nil _).symm, rfl⟩

/-- Nobody hears of anything in a play on the side. -/
theorem quietly (h : ∀ w, ∃ events, (y.run.run w).2.log = w.log ++ events ∧ heardIn events = []) :
    Tells (Telling.quietly y) y := by
  intro a
  obtain ⟨events, hlog, hheard⟩ := h a.toWorld
  exact ⟨rfl, events, [], hlog, (List.append_nil _).symm, hheard⟩

theorem unrecorded (h : ∀ w, (y.run.run w).2.log = w.log) : Tells (Telling.quietly y) y :=
  quietly fun w => ⟨[], by rw [h, List.append_nil], rfl⟩

/-- A deed that is told is no part of the play. -/
theorem deed (i : Nat) (deed : Deed) (h : deed.invoked? = none) :
    Tells (modify fun a => a.note i deed) (Pure.pure ⟨⟩) :=
  fun _ => ⟨rfl, [], [(i, deed)], (List.append_nil _).symm, rfl, by simp [heardIn, toldIn, h]⟩

theorem bind (hx : Tells x y) (hf : ∀ v, Tells (f v) (g v)) : Tells (x >>= f) (y >>= g) := by
  intro a
  obtain ⟨herased, events, deeds, hlog, hhistory, hheard⟩ := hx a
  refine ⟨?_, ?_⟩
  · rw [Play.run_bind, Play.run_bind, ← herased]
    rcases x.run.run a with ⟨_ | v, b⟩
    · rfl
    · exact (hf v b).erased
  · rw [Play.run_bind]
    rcases hrun : x.run.run a with ⟨_ | v, b⟩ <;> rw [hrun] at hlog hhistory
    · exact ⟨events, deeds, hlog, hhistory, hheard⟩
    · obtain ⟨-, events', deeds', hlog', hhistory', hheard'⟩ := hf v b
      refine ⟨events ++ events', deeds ++ deeds', ?_, ?_, ?_⟩
      · rw [hlog', hlog, List.append_assoc]
      · rw [hhistory', hhistory, List.append_assoc]
      · simp only [heardIn, toldIn, List.filterMap_append] at hheard hheard' ⊢
        rw [hheard, hheard']

/-- A play that is told of first. -/
theorem after {z : Telling PUnit} (hz : Tells z (Pure.pure ⟨⟩)) (hx : Tells x y) :
    Tells (z >>= fun _ => x) y := by
  have h := hz.bind fun _ => hx
  rwa [pure_bind] at h

theorem caught (hx : Tells x y) (handle : String → α) :
    Tells (tryCatch x fun text => Pure.pure (handle text))
      (tryCatch y fun text => Pure.pure (handle text)) := by
  intro a
  obtain ⟨herased, hheard⟩ := hx a
  refine ⟨?_, ?_⟩
  · rw [Play.run_tryCatch, Play.run_tryCatch, ← herased]
    rcases x.run.run a with ⟨_ | v, b⟩ <;> rfl
  · rw [Play.run_tryCatch]
    rcases hrun : x.run.run a with ⟨_ | v, b⟩ <;> rw [hrun] at hheard <;> exact hheard

-- What follows may write back what was read, which is right from that account alone.
theorem get_bind {f : Account → Telling β} {g : World → Play β}
    (h : ∀ a, TellsFrom a (f a) (g a.toWorld)) : Tells (get >>= f) (get >>= g) :=
  fun a => ⟨(h a).erased, (h a).heard⟩

theorem note (c : Callback) (deed : Routine → Except ClientError Int → Deed)
    (h : ∀ r result, (deed r result).invoked? = none) :
    Tells (Telling.note c deed) (Pure.pure ⟨⟩) := by
  unfold Telling.note
  split
  · exact Tells.deed _ _ (h _ _)
  · exact pure _

theorem record (e : Event) (h : e.heard? = none) :
    Tells (Telling.quietly (PromiseScript.record e)) (PromiseScript.record e) :=
  quietly fun _ => ⟨[e], rfl, by simp [heardIn, h]⟩

theorem settle (c : Callback) (how : Outcome) : Tells (Telling.settle c how) (c.settle how) := by
  refine after ?_ (quietly fun w => ?_)
  · unfold Telling.noteHook
    split
    · exact note _ _ fun _ _ => rfl
    · exact pure _
  · obtain ⟨events, hrun, hheard, -⟩ := c.run_settle w how
    exact ⟨events, by rw [hrun], hheard⟩

theorem submit (c : Callback) : Tells (Telling.submit c) (PromiseScript.submit c) := by
  refine get_bind fun a => ?_
  by_cases h : a.rejecting
  · simp only [h, if_true]
    exact after (note _ _ fun _ _ => rfl) (settle c _) a
  · simp only [h]
    exact ⟨rfl, [], [], (List.append_nil _).symm, (List.append_nil _).symm, rfl⟩

variable (hplay : ∀ step, Tells (play step) (play' step))
include hplay

theorem routine (r : Routine) : Tells (Telling.routine play r) (r.perform play') := by
  have hnext (steps : List Step) : Tells
      (forIn steps PUnit.unit fun step _ => do
        let answer ← play step
        Telling.quietly (PromiseScript.record (.answered answer))
        Pure.pure (ForInStep.yield PUnit.unit))
      (forIn steps PUnit.unit fun step _ => do
        let answer ← play' step
        PromiseScript.record (.answered answer)
        Pure.pure (ForInStep.yield PUnit.unit)) := by
    induction steps with
    | nil => exact pure _
    | cons step steps ih =>
      rw [List.forIn_cons, List.forIn_cons]
      refine bind (bind (hplay step) fun answer => bind (record _ rfl) fun _ => pure _) fun out => ?_
      cases out with
      | done => exact pure _
      | yield => exact ih
  refine bind (hnext r.next) fun _ => ?_
  cases r.panic with
  | none => exact pure _
  | some text => exact throw text

omit hplay in
/-- A listener that is told of hears its result. -/
theorem begins (c : Callback) :
    Tells (do Telling.note c .invoked; Telling.quietly c.begin) c.begin := by
  obtain ⟨_ | ⟨i, result⟩, r, completion⟩ := c
  · exact after (pure _) (record _ rfl)
  · exact fun _ => ⟨rfl, [.heard r.label result], [(i, .invoked r result)], rfl, rfl, rfl⟩

theorem callback (c : Callback) : Tells (Telling.callback play c) (c.perform play') := by
  have h := (begins c).bind fun _ => routine hplay c.routine
  rwa [bind_assoc] at h

theorem deliver (i : Nat) (d : Dispatch) (r : Routine) (result : Except ClientError Int) :
    Tells (Telling.deliver play i d r result) (PromiseScript.deliver play' i d r result) := by
  cases d with
  | direct => exact callback hplay _
  | queued hook => exact after (note _ _ fun _ _ => rfl) (submit _)

theorem runCallback (c : Callback) :
    Tells (Telling.runCallback play c) (PromiseScript.runCallback play' c) := by
  have hperform : Tells (do Telling.callback play c; Pure.pure (.ok ()) : Telling Outcome)
      (do c.perform play'; Pure.pure (.ok ())) := bind (callback hplay c) fun _ => pure _
  exact bind (hperform.caught _) fun how => after (note _ _ fun _ _ => rfl) (settle c how)

theorem runQueue (count done : Nat) :
    Tells (Telling.runQueue play count done) (PromiseScript.runQueue play' count done) := by
  induction count generalizing done with
  | zero => exact pure _
  | succ count ih =>
    refine get_bind fun a => ?_
    rcases hq : a.queue with _ | ⟨c, rest⟩
    · exact pure _ a
    · have hrest := bind (runCallback hplay c) fun _ => ih (done + 1)
      obtain ⟨herased, hheard⟩ := hrest { a with queue := rest }
      exact ⟨herased, hheard⟩

theorem complete (p : Nat) (result : Except ClientError Int) :
    Tells (Telling.complete play p result) (PromiseScript.complete play' p result) := by
  refine get_bind fun a => ?_
  rcases a.promise? p with _ | ⟨i, d, cell⟩
  · exact pure _ a
  · dsimp only
    rcases cell.complete result with e | ⟨cell, _ | r⟩
    · exact after (deed _ _ rfl) (pure _) a
    · exact bind (unrecorded fun _ => rfl)
        (fun _ => after (deed _ _ rfl) (pure _)) a
    · exact bind (unrecorded fun _ => rfl)
        (fun _ => after (deed _ _ rfl) (bind (deliver hplay i d r result) fun _ => pure _)) a

theorem listen (p : Nat) (r : Routine) :
    Tells (Telling.listen play p r) (PromiseScript.listen play' p r) := by
  refine get_bind fun a => ?_
  rcases a.promise? p with _ | ⟨i, d, cell⟩
  · exact pure _ a
  · dsimp only
    rcases cell.attach r with e | ⟨cell, _ | result⟩
    · exact after (deed _ _ rfl) (pure _) a
    · exact bind (unrecorded fun _ => rfl)
        (fun _ => after (deed _ _ rfl) (pure _)) a
    · exact bind (unrecorded fun _ => rfl)
        (fun _ => after (deed _ _ rfl) (bind (deliver hplay i d r result) fun _ => pure _)) a

theorem perform (step : Step) :
    Tells (Telling.perform play step) (PromiseScript.perform play' step) := by
  have hsubmit (c : Callback) : Tells
      (Telling.quietly (do PromiseScript.submit c; Pure.pure .ok : Play Answer))
      (do PromiseScript.submit c; Pure.pure .ok) := by
    refine quietly fun w => ?_
    obtain ⟨v, events, hrun, hlog, hheard, -⟩ := c.run_submit w
    exact ⟨events, by rw [Play.run_bind_pure_snd, hrun, hlog], hheard⟩
  have hsame {step : Step}
      (haside : Telling.perform play step = Telling.quietly (PromiseScript.perform play' step))
      (hlog : ∀ w, ((PromiseScript.perform play' step).run.run w).2.log = w.log) :
      Tells (Telling.perform play step) (PromiseScript.perform play' step) := by
    rw [haside]
    exact unrecorded hlog
  cases step with
  | complete p result => exact complete hplay p result
  | listen p label next panic => exact listen hplay p ⟨label, next, panic⟩
  | run count => exact bind (runQueue hplay count 0) fun _ => pure _
  | dispatch label hook next panic => exact hsubmit _
  | dispatchWith label next panic => exact hsubmit _
  | clone p | isDone p | inspect p | same p q =>
    refine hsame rfl fun w => ?_
    rw [PromiseScript.perform, Play.run_bind, Play.run_get]
    dsimp only
    split <;> rfl
  | new d | inspectDispatch hook | reject on | unknown => exact hsame rfl fun _ => rfl

omit hplay in
theorem play_depth (depth : Nat) (step : Step) :
    Tells (Telling.play depth step) (PromiseScript.play depth step) := by
  induction depth generalizing step with
  | zero => exact pure _
  | succ depth ih => exact perform ih step

end Tells

namespace Account

end Account

end PromiseScript

end PubSub
