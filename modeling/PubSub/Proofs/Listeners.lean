import PubSub.Proofs.Accounts

/-! # Listeners in scripts

The steps of a script, those of its listeners and callbacks included, keep the
law of every promise, whether they return or panic. A step that runs a listener
on the way leaves the promise in order before it does so, and therefore whatever
the listener does to the same promise is lawful as well.
-/

namespace PubSub

namespace PromiseScript

/-- What has happened to a promise, in order. -/
def Account.deeds (a : Account) (i : Nat) : List Deed :=
  a.history.filterMap fun x => if x.1 = i then some x.2 else none

theorem Account.deeds_append {v w : Account} {more : List (Nat × Deed)}
    (h : v.history = w.history ++ more) (i : Nat) :
    v.deeds i = w.deeds i ++ more.filterMap fun x => if x.1 = i then some x.2 else none := by
  rw [deeds, h, List.filterMap_append, deeds]

def Callback.delivery? (i : Nat) (c : Callback) : Option Delivery :=
  match c.heard with
  | some (j, result) => if j = i then some (c.routine, result) else none
  | none => none

namespace Callback

variable {c : Callback} {i j : Nat} {result : Except ClientError Int}

theorem delivery?_of_unheard (h : c.heard = none) (i : Nat) : c.delivery? i = none := by
  simp [delivery?, h]

theorem delivery?_self (h : c.heard = some (i, result)) :
    c.delivery? i = some (c.routine, result) := by
  simp [delivery?, h]

theorem delivery?_of_ne (h : c.heard = some (i, result)) (hj : j ≠ i) : c.delivery? j = none := by
  simp [delivery?, h, hj.symm]

end Callback

def deliveries (i : Nat) (cs : List Callback) : List Delivery := cs.filterMap (·.delivery? i)

theorem deliveries_append (i : Nat) (cs es : List Callback) :
    deliveries i (cs ++ es) = deliveries i cs ++ deliveries i es := List.filterMap_append

theorem deliveries_singleton (i : Nat) (c : Callback) :
    deliveries i [c] = (c.delivery? i).toList := by
  cases h : c.delivery? i <;> simp [deliveries, h]

theorem deliveries_cons (i : Nat) (c : Callback) (cs : List Callback) :
    deliveries i (c :: cs) = (c.delivery? i).toList ++ deliveries i cs := by
  rw [← List.singleton_append, deliveries_append, deliveries_singleton]

/-- What a step is about to deliver for a promise. -/
def owedTo (owed : Option (Nat × Delivery)) (i : Nat) : List Delivery :=
  match owed with
  | some (j, x) => if j = i then [x] else []
  | none => []

/-- Every promise obeys the law, and callbacks that run listeners belong to promises. -/
structure Lawful (owed : Option (Nat × Delivery)) (running : List Callback) (w : Account) : Prop where
  law : ∀ i d cell, w.promises[i]? = some (d, cell) → cell = cellOf (w.deeds i) ∧
    Law d (w.deeds i) (owedTo owed i) (deliveries i w.queue) (deliveries i running).length
  known : ∀ c ∈ running ++ w.queue, ∀ i result, c.heard = some (i, result) →
    ∃ hook cell, w.promises[i]? = some (.queued hook, cell) ∧ c.completion = completionFor hook
  fresh : ∀ i, w.promises.length ≤ i → w.deeds i = []

namespace Lawful

variable {owed owed' : Option (Nat × Delivery)} {running running' : List Callback} {v w : Account}
  {i : Nat} {d : Dispatch} {cell : Promise Int Routine} {es : List Deed} {c : Callback}

/-- Handles, events and callbacks of their own have nothing to do with promises. -/
theorem frame (h : Lawful owed running w) (hpromises : v.promises = w.promises)
    (hhistory : v.history = w.history)
    (hqueue : ∀ i, deliveries i v.queue = deliveries i w.queue)
    (hrunning : ∀ i, (deliveries i running').length = (deliveries i running).length)
    (hknown : ∀ c ∈ running' ++ v.queue, c ∈ running ++ w.queue ∨ c.heard = none) :
    Lawful owed running' v := by
  have hdeeds (i : Nat) : v.deeds i = w.deeds i := by rw [Account.deeds, hhistory, Account.deeds]
  refine ⟨fun i d cell hi => ?_, fun c hc i result hi => ?_, fun i hi => ?_⟩
  · rw [hpromises] at hi
    rw [hdeeds, hqueue, hrunning]
    exact h.law i d cell hi
  · rw [hpromises]
    rcases hknown c hc with hc | hc
    · exact h.known c hc i result hi
    · rw [hc] at hi
      cases hi
  · rw [hpromises] at hi
    rw [hdeeds]
    exact h.fresh i hi

theorem change (h : Lawful owed running w) (hi : w.promises[i]? = some (d, cell))
    (hpromises : v.promises = w.promises.set i (d, cellOf (w.deeds i ++ es)))
    (hdeeds : ∀ j, v.deeds j = w.deeds j ++ if j = i then es else [])
    (hothers : ∀ j, j ≠ i → owedTo owed' j = owedTo owed j ∧
      deliveries j v.queue = deliveries j w.queue ∧
      (deliveries j running').length = (deliveries j running).length)
    (hlaw : Law d (w.deeds i ++ es) (owedTo owed' i) (deliveries i v.queue)
      (deliveries i running').length)
    (hknown : ∀ c ∈ running' ++ v.queue, c ∈ running ++ w.queue ∨ ∃ result hook,
      c.heard = some (i, result) ∧ d = .queued hook ∧ c.completion = completionFor hook) :
    Lawful owed' running' v := by
  have hlt : i < w.promises.length := (List.getElem?_eq_some_iff.mp hi).1
  have hget (j : Nat) : v.promises[j]? =
      if i = j then some (d, cellOf (w.deeds i ++ es)) else w.promises[j]? := by
    rw [hpromises, List.getElem?_set, if_pos hlt]
  refine ⟨fun j e cell' hj => ?_, fun c hc j result hj => ?_, fun j hj => ?_⟩
  · rw [hget] at hj
    rw [hdeeds]
    split at hj
    · next he =>
      subst he
      cases hj
      rw [if_pos rfl]
      exact ⟨rfl, hlaw⟩
    · next hne =>
      obtain ⟨ho, hq, hr⟩ := hothers j (Ne.symm hne)
      rw [if_neg (Ne.symm hne), List.append_nil, ho, hq, hr]
      exact h.law j e cell' hj
  · rw [hget]
    rcases hknown c hc with hc | ⟨result', hook, hheard, hd, hcompletion⟩
    · obtain ⟨hook, cell', hj, hcompletion⟩ := h.known c hc j result hj
      split
      · next he =>
        subst he
        rw [hi] at hj
        cases hj
        exact ⟨hook, _, rfl, hcompletion⟩
      · exact ⟨hook, cell', hj, hcompletion⟩
    · rw [hheard] at hj
      cases hj
      rw [if_pos rfl, hd]
      exact ⟨hook, _, rfl, hcompletion⟩
  · rw [hpromises, List.length_set] at hj
    rw [hdeeds, if_neg (by omega), List.append_nil]
    exact h.fresh j hj

theorem deeds_of_history (h : v.history = w.history ++ es.map (i, ·)) (j : Nat) :
    v.deeds j = w.deeds j ++ if j = i then es else [] := by
  rw [Account.deeds_append h]
  congr 1
  induction es with
  | nil => simp
  | cons x es _ =>
    by_cases hj : j = i
    · subst hj
      simp
    · simp [hj, Ne.symm hj]

theorem deeds_note {x : Deed} (j : Nat) :
    (w.note i x).deeds j = w.deeds j ++ if j = i then [x] else [] :=
  deeds_of_history rfl j

theorem set_self (h : Lawful owed running w) (hi : w.promises[i]? = some (d, cell))
    (hsame : cellOf (w.deeds i ++ es) = cellOf (w.deeds i)) :
    w.promises = w.promises.set i (d, cellOf (w.deeds i ++ es)) := by
  refine List.ext_getElem? fun j => ?_
  rw [List.getElem?_set]
  split
  · next he =>
    subst he
    rw [hi, (h.law i d cell hi).1, hsame, if_pos (List.getElem?_eq_some_iff.mp hi).1]
  · rfl

theorem take (h : Lawful none running w) (hi : w.promises[i]? = some (d, cell)) {x : Deed}
    (owed : Option Delivery) (hlaw : Law d (w.deeds i ++ [x]) owed.toList (deliveries i w.queue)
      (deliveries i running).length) :
    Lawful (owed.map (i, ·)) running
      ({ w with toWorld := w.setPromise i d (cellOf (w.deeds i ++ [x])) }.note i x) := by
  have howed : owedTo (owed.map (i, ·)) i = owed.toList := by cases owed <;> simp [owedTo]
  refine h.change hi rfl deeds_note (fun j hj => ⟨?_, rfl, rfl⟩) (howed ▸ hlaw) fun c hc => .inl hc
  cases owed <;> simp [owedTo, Ne.symm hj]

end Lawful

/-- What is told leaves the promises in order, also if it ends in a panic. -/
def Keeps {α : Type} (x : Telling α) : Prop :=
  ∀ running w, Lawful none running w → Lawful none running (x.run.run w).2

namespace Keeps

variable {α β : Type} {x : Telling α} {f : α → Telling β} {play : Step → Telling Answer}

theorem pure (a : α) : Keeps (Pure.pure a : Telling α) := fun _ _ h => h

theorem throw (text : String) : Keeps (MonadExcept.throw text : Telling α) := fun _ _ h => h

theorem bind (hx : Keeps x) (hf : ∀ a, Keeps (f a)) : Keeps (x >>= f) := by
  intro running w h
  rw [Play.run_bind]
  have hfirst := hx running w h
  rcases hrun : x.run.run w with ⟨_ | a, v⟩
  · rwa [hrun] at hfirst
  · rw [hrun] at hfirst
    exact hf a running v hfirst

theorem quietly {y : Play α} (hpromises : ∀ w, (y.run.run w).2.promises = w.promises)
    (hqueue : ∀ w, (y.run.run w).2.queue = w.queue) : Keeps (Telling.quietly y) := by
  intro running w h
  refine h.frame (hpromises w.toWorld) rfl (fun i => ?_) (fun _ => rfl) fun c hc => ?_
  · exact congrArg (deliveries i) (hqueue w.toWorld)
  · exact .inl (hqueue w.toWorld ▸ hc)

theorem record (e : Event) : Keeps (Telling.quietly (PromiseScript.record e)) :=
  quietly (fun _ => rfl) fun _ => rfl

theorem routine (hplay : ∀ step, Keeps (play step)) (r : Routine) :
    Keeps (Telling.routine play r) := by
  have hnext (steps : List Step) : Keeps (forIn steps PUnit.unit fun step _ => do
      let answer ← play step
      Telling.quietly (PromiseScript.record (.answered answer))
      Pure.pure (ForInStep.yield PUnit.unit)) := by
    induction steps with
    | nil => exact pure _
    | cons step steps ih =>
      rw [List.forIn_cons]
      refine bind (bind (hplay step) fun answer => bind (record _) fun _ => pure _) fun out => ?_
      cases out with
      | done => exact pure _
      | yield => exact ih
  refine bind (hnext r.next) fun _ => ?_
  cases r.panic with
  | none => exact pure _
  | some text => exact throw text

end Keeps

namespace Telling

variable {c : Callback} {i : Nat} {r : Routine} {result : Except ClientError Int} {hook : Bool}
  {w : Account}

theorem run_note_of_unheard (h : c.heard = none) (deed : Routine → Except ClientError Int → Deed)
    (w : Account) : (note c deed).run.run w = (.ok ⟨⟩, w) := by
  simp only [note, h]
  rfl

theorem run_note (h : c.heard = some (i, result)) (deed : Routine → Except ClientError Int → Deed)
    (w : Account) : (note c deed).run.run w = (.ok ⟨⟩, w.note i (deed c.routine result)) := by
  simp only [note, h]
  rfl

theorem run_quietly {α : Type} (x : Play α) (w : Account) :
    (quietly x).run.run w =
      ((x.run.run w.toWorld).1, { w with toWorld := (x.run.run w.toWorld).2 }) := rfl

theorem run_settle_of_unheard (h : c.heard = none) (how : Outcome) (w : Account) :
    ∃ log, (settle c how).run.run w = (.ok ⟨⟩, { w with log := log }) := by
  obtain ⟨events, hrun, -⟩ := c.run_settle w.toWorld how
  have hhook : (noteHook c how).run.run w = (.ok ⟨⟩, w) := by
    unfold noteHook
    split
    · exact run_note_of_unheard h _ w
    · rfl
  refine ⟨w.log ++ events, ?_⟩
  rw [settle, Play.run_bind, hhook]
  simp only [run_quietly, hrun]

theorem run_settle (h : c.heard = some (i, result)) (hc : c.completion = completionFor hook)
    (how : Outcome) (w : Account) :
    ∃ log, (settle c how).run.run w = (.ok ⟨⟩, { w with
      log := log
      history := w.history ++
        if hook then (failure? how).toList.map fun e => (i, .hooked e) else [] }) := by
  obtain ⟨events, hrun, -⟩ := c.run_settle w.toWorld how
  have hhook : (noteHook c how).run.run w = (.ok ⟨⟩, { w with
      history := w.history ++
        if hook then (failure? how).toList.map fun e => (i, .hooked e) else [] }) := by
    cases hook <;> cases how <;>
      simp only [noteHook, hc, completionFor, if_true, if_false, Bool.false_eq_true,
        Promise.listened, run_note h, failure?, Option.toList, List.map_nil, List.append_nil] <;>
      rfl
  refine ⟨w.log ++ events, ?_⟩
  rw [settle, Play.run_bind, hhook]
  simp only [run_quietly, hrun]

/-- The listener of a queued promise is turned down, or it waits in the queue. -/
theorem run_deliver (play : Step → Telling Answer) (i : Nat) (hook : Bool) (r : Routine)
    (result : Except ClientError Int) (w : Account) :
    (∃ log, (deliver play i (.queued hook) r result).run.run w = (.ok ⟨⟩, { w with
      log := log
      history := w.history ++ (Deed.handed r result :: .turnedDown r result ::
        if hook then [.hooked rejected] else []).map (i, ·) })) ∨
      (deliver play i (.queued hook) r result).run.run w =
        (.ok ⟨⟩, { w.note i (.handed r result) with
          queue := w.queue ++ [⟨some (i, result), r, completionFor hook⟩] }) := by
  simp only [deliver, Play.run_bind]
  rw [run_note rfl]
  simp only [submit, Play.run_bind, Play.run_get]
  split
  · left
    rw [Play.run_bind, run_note rfl]
    obtain ⟨log, hsettle⟩ := run_settle (c := ⟨some (i, result), r, completionFor hook⟩)
      rfl rfl (.error rejected) ((w.note i (.handed r result)).note i (.turnedDown r result))
    simp only [hsettle]
    refine ⟨log, ?_⟩
    cases hook <;> simp [Account.note, failure?]
  · exact .inr rfl

end Telling

namespace Keeps

variable {play : Step → Telling Answer} {i : Nat} {r : Routine} {result : Except ClientError Int}
  {hook : Bool} {running : List Callback} {w : Account} {cell : Promise Int Routine}

/-- A listener whose promise is in order with what is owed to it is given its result. -/
theorem deliver (hplay : ∀ step, Keeps (play step)) {d : Dispatch}
    (h : Lawful (some (i, r, result)) running w) (hi : w.promises[i]? = some (d, cell)) :
    Lawful none running ((Telling.deliver play i d r result).run.run w).2 := by
  have howed : owedTo (some (i, r, result)) i = [(r, result)] := if_pos rfl
  have hlaw := (h.law i d cell hi).2
  have hother (j : Nat) (hj : j ≠ i) : owedTo none j = owedTo (some (i, r, result)) j :=
    (if_neg (Ne.symm hj)).symm
  rw [howed] at hlaw
  cases d with
  | direct =>
    have hnote : Lawful none running (w.note i (.invoked r result)) :=
      h.change hi (h.set_self hi (firsts_append (.inl rfl) (.inl rfl)).2) Lawful.deeds_note
        (fun j hj => ⟨hother j hj, rfl, rfl⟩) hlaw.invoke fun c hc => .inl hc
    have hrest : Keeps (do
        Telling.quietly (PromiseScript.record (.heard r.label result))
        Telling.routine play r) := bind (record _) fun _ => routine hplay r
    have hrun : (Telling.deliver play i .direct r result).run.run w =
        (do
          Telling.quietly (PromiseScript.record (.heard r.label result))
          Telling.routine play r : Telling Unit).run.run (w.note i (.invoked r result)) := by
      rw [Telling.deliver, Telling.callback, Play.run_bind, Telling.run_note rfl]
      rfl
    rw [hrun]
    exact hrest running _ hnote
  | queued hook =>
    rcases Telling.run_deliver play i hook r result w with ⟨log, hrun⟩ | hrun
    · rw [hrun]
      refine h.change hi (h.set_self hi (firsts_append (.inl ?_) (.inl ?_)).2)
        (Lawful.deeds_of_history rfl) (fun j hj => ⟨hother j hj, rfl, rfl⟩) hlaw.turnDown
        fun c hc => .inl hc
      · cases hook <;> rfl
      · cases hook <;> rfl
    · rw [hrun]
      refine h.change hi (h.set_self hi (firsts_append (.inl rfl) (.inl rfl)).2) Lawful.deeds_note
        (fun j hj => ⟨hother j hj, ?_, rfl⟩) ?_ fun c hc => ?_
      · rw [deliveries_append, deliveries_singleton, Callback.delivery?_of_ne rfl hj]
        exact List.append_nil _
      · rw [deliveries_append, deliveries_singleton, Callback.delivery?_self rfl]
        exact hlaw.enqueue
      · rw [← List.append_assoc] at hc
        rcases List.mem_append.mp hc with hc | hc
        · exact .inl hc
        · cases List.mem_singleton.mp hc
          exact .inr ⟨result, hook, rfl, rfl, rfl⟩

theorem complete (hplay : ∀ step, Keeps (play step)) (p : Nat) (result : Except ClientError Int) :
    Keeps (Telling.complete play p result) := by
  intro running w h
  simp only [Telling.complete, Play.run_bind, Play.run_get]
  cases hp : w.promise? p with
  | none => exact h
  | some x =>
    obtain ⟨i, d, cell⟩ := x
    have hi : w.promises[i]? = some (d, cell) := World.getElem?_of_promise? hp
    obtain ⟨rfl, hlaw⟩ := h.law i d cell hi
    simp only [complete_cellOf]
    by_cases hf : (firstResult? (w.deeds i)).isSome
    · simp only [hf, if_true, Play.run_bind, Play.run_modify]
      exact h.change hi (h.set_self hi (firsts_append (.inr hf) (.inl rfl)).2) Lawful.deeds_note
        (fun _ _ => ⟨rfl, rfl, rfl⟩) (hlaw.complete_refused hf) fun c hc => .inl hc
    · simp only [hf, Bool.false_eq_true, if_false, Play.run_bind, Telling.run_quietly,
        Play.run_modify]
      have hlaw := hlaw.complete result (Option.not_isSome_iff_eq_none.mp hf)
      cases hl : firstListener? (w.deeds i) with
      | none =>
        rw [hl] at hlaw
        exact h.take hi none hlaw
      | some r =>
        rw [hl] at hlaw
        have htaken := h.take hi (some (r, result)) hlaw
        simp only [Play.run_bind_pure_snd]
        exact deliver hplay htaken (List.getElem?_set_self (List.getElem?_eq_some_iff.mp hi).1)

theorem listen (hplay : ∀ step, Keeps (play step)) (p : Nat) (r : Routine) :
    Keeps (Telling.listen play p r) := by
  intro running w h
  simp only [Telling.listen, Play.run_bind, Play.run_get]
  cases hp : w.promise? p with
  | none => exact h
  | some x =>
    obtain ⟨i, d, cell⟩ := x
    have hi : w.promises[i]? = some (d, cell) := World.getElem?_of_promise? hp
    obtain ⟨rfl, hlaw⟩ := h.law i d cell hi
    simp only [attach_cellOf]
    by_cases hl : (firstListener? (w.deeds i)).isSome
    · simp only [hl, if_true, Play.run_bind, Play.run_modify]
      exact h.change hi (h.set_self hi (firsts_append (.inl rfl) (.inr hl)).2) Lawful.deeds_note
        (fun _ _ => ⟨rfl, rfl, rfl⟩) (hlaw.attach_refused hl) fun c hc => .inl hc
    · simp only [hl, Bool.false_eq_true, if_false, Play.run_bind, Telling.run_quietly,
        Play.run_modify]
      have hlaw := hlaw.attach r (Option.not_isSome_iff_eq_none.mp hl)
      cases hf : firstResult? (w.deeds i) with
      | none =>
        rw [hf] at hlaw
        exact h.take hi none hlaw
      | some result =>
        rw [hf] at hlaw
        have htaken := h.take hi (some (r, result)) hlaw
        simp only [Play.run_bind_pure_snd]
        exact deliver hplay htaken (List.getElem?_set_self (List.getElem?_eq_some_iff.mp hi).1)

theorem begin_callback {c : Callback} {rest : List Callback} (h : Lawful none running w)
    (hq : w.queue = c :: rest) :
    Lawful none (c :: running) ((Telling.note c .invoked).run.run { w with queue := rest }).2 := by
  have hqueue (i : Nat) : deliveries i w.queue = (c.delivery? i).toList ++ deliveries i rest := by
    rw [hq, deliveries_cons]
  have hknown (e : Callback) (he : e ∈ c :: running ++ rest) : e ∈ running ++ w.queue := by
    rw [hq]
    simp only [List.cons_append, List.mem_cons, List.mem_append] at he ⊢
    rcases he with he | he | he <;> simp [he]
  cases hc : c.heard with
  | none =>
    rw [Telling.run_note_of_unheard hc]
    refine h.frame rfl rfl (fun i => ?_) (fun i => ?_) fun e he => .inl (hknown e he)
    · rw [hqueue, Callback.delivery?_of_unheard hc]
      rfl
    · rw [deliveries_cons, Callback.delivery?_of_unheard hc]
      rfl
  | some x =>
    obtain ⟨i, result⟩ := x
    obtain ⟨hook, cell, hi, -⟩ := h.known c (by simp [hq]) i result hc
    obtain ⟨rfl, hlaw⟩ := h.law i _ _ hi
    rw [hqueue, Callback.delivery?_self hc] at hlaw
    rw [Telling.run_note hc]
    refine h.change hi (h.set_self hi (firsts_append (.inl rfl) (.inl rfl)).2) Lawful.deeds_note
      (fun j hj => ⟨rfl, ?_, ?_⟩) ?_ fun e he => .inl (hknown e he)
    · rw [hqueue, Callback.delivery?_of_ne hc hj]
      rfl
    · rw [deliveries_cons, Callback.delivery?_of_ne hc hj]
      rfl
    · rw [deliveries_cons, Callback.delivery?_self hc, List.length_append, Nat.add_comm]
      exact hlaw.start

theorem end_callback {c : Callback} (h : Lawful none (c :: running) w) (how : Outcome) :
    Lawful none running ((do (Telling.note c fun _ _ => .ended how); Telling.settle c how).run.run w).2 := by
  rw [Play.run_bind]
  cases hc : c.heard with
  | none =>
    rw [Telling.run_note_of_unheard hc]
    obtain ⟨log, hsettle⟩ := Telling.run_settle_of_unheard hc how w
    simp only [hsettle]
    refine h.frame rfl rfl (fun _ => rfl) (fun i => ?_) fun e he => .inl (List.mem_cons_of_mem _ he)
    rw [deliveries_cons, Callback.delivery?_of_unheard hc]
    rfl
  | some x =>
    obtain ⟨i, result⟩ := x
    obtain ⟨hook, cell, hi, hcompletion⟩ := h.known c List.mem_cons_self i result hc
    obtain ⟨rfl, hlaw⟩ := h.law i _ _ hi
    rw [deliveries_cons, Callback.delivery?_self hc, List.length_append, Nat.add_comm] at hlaw
    rw [Telling.run_note hc]
    obtain ⟨log, hsettle⟩ := Telling.run_settle hc hcompletion how (w.note i (.ended how))
    simp only [hsettle]
    refine h.change hi (h.set_self hi (firsts_append (.inl ?_) (.inl ?_)).2) (fun j => ?_)
      (fun j hj => ⟨rfl, rfl, ?_⟩) (hlaw.finish how) fun e he => .inl (List.mem_cons_of_mem _ he)
    · cases hook <;> cases how <;> rfl
    · cases hook <;> cases how <;> rfl
    · refine Lawful.deeds_of_history ?_ j
      cases hook <;> cases how <;> simp [Account.note, failure?]
    · rw [deliveries_cons, Callback.delivery?_of_ne hc hj]
      rfl

theorem runCallback (hplay : ∀ step, Keeps (play step)) {c : Callback} {rest : List Callback}
    (h : Lawful none running w) (hq : w.queue = c :: rest) :
    Lawful none running
      ((Telling.runCallback play c).run.run { w with queue := rest }).2 := by
  have hrest : Keeps (do Telling.quietly c.begin; Telling.routine play c.routine) := by
    refine bind ?_ fun _ => routine hplay _
    unfold Callback.begin
    split <;> exact record _
  have hbegun := begin_callback h hq
  have hperformed :
      Lawful none (c :: running) ((Telling.callback play c).run.run { w with queue := rest }).2 := by
    rw [Telling.callback, Play.run_bind]
    rcases hnote : (Telling.note c .invoked).run.run { w with queue := rest } with ⟨_ | _, v⟩
    · rwa [hnote] at hbegun
    · rw [hnote] at hbegun
      exact hrest (c :: running) v hbegun
  obtain ⟨how, hcaught⟩ := Play.run_caught (Telling.callback play c) { w with queue := rest }
  rw [Telling.runCallback, Play.run_bind, hcaught]
  exact end_callback hperformed how

theorem runQueue (hplay : ∀ step, Keeps (play step)) (count done : Nat) :
    Keeps (Telling.runQueue play count done) := by
  induction count generalizing done with
  | zero => exact pure done
  | succ count ih =>
    intro running w h
    simp only [Telling.runQueue, Play.run_bind, Play.run_get]
    split
    · exact h
    · next c rest hq =>
      simp only [Play.run_bind, Play.run_set]
      have hc := runCallback hplay h hq
      rcases hrun : (Telling.runCallback play c).run.run { w with queue := rest } with
        ⟨_ | _, v⟩
      · rwa [hrun] at hc
      · rw [hrun] at hc
        exact ih (done + 1) running v hc

theorem submit_unheard {c : Callback} (hc : c.heard = none) (answer : Answer) :
    Keeps (Telling.quietly (do submit c; Pure.pure answer)) := by
  intro running w h
  show Lawful none running { w with
    toWorld := ((do submit c; Pure.pure answer : Play Answer).run.run w.toWorld).2 }
  rw [Play.run_bind_pure_snd]
  simp only [submit, Play.run_bind, Play.run_get]
  split
  · obtain ⟨events, hsettle, -⟩ := c.run_settle w.toWorld (.error rejected)
    rw [hsettle]
    exact h.frame rfl rfl (fun _ => rfl) (fun _ => rfl) fun c hc => .inl hc
  · rw [Play.run_set]
    refine h.frame rfl rfl (fun i => ?_) (fun _ => rfl) fun e he => ?_
    · rw [deliveries_append, deliveries_singleton, Callback.delivery?_of_unheard hc]
      exact List.append_nil _
    · rw [← List.append_assoc] at he
      rcases List.mem_append.mp he with he | he
      · exact .inl he
      · cases List.mem_singleton.mp he
        exact .inr hc

theorem new (d : Dispatch) : Keeps (Telling.perform play (.new d)) := by
  intro running w h
  have hnone (cs : List Callback) (hcs : ∀ c ∈ cs, c ∈ running ++ w.queue) :
      deliveries w.promises.length cs = [] := by
    refine List.filterMap_eq_nil_iff.mpr fun c hc => ?_
    cases hh : c.heard with
    | none => exact Callback.delivery?_of_unheard hh _
    | some x =>
      obtain ⟨j, result⟩ := x
      obtain ⟨hook, cell, hj, -⟩ := h.known c (hcs c hc) j result hh
      have hlt := (List.getElem?_eq_some_iff.mp hj).1
      exact Callback.delivery?_of_ne hh (Nat.ne_of_gt hlt)
  show Lawful none running { w with
    promises := w.promises ++ [(d, Promise.new)]
    handles := w.handles ++ [w.promises.length] }
  refine ⟨fun i e cell hi => ?_, fun c hc i result hh => ?_, fun i hi => ?_⟩
  · rw [List.getElem?_append] at hi
    split at hi
    · exact h.law i e cell hi
    · rw [List.getElem?_singleton] at hi
      split at hi <;> cases hi
      have hi : i = w.promises.length := by omega
      subst hi
      have hdeeds : Account.deeds { w with
          promises := w.promises ++ [(d, Promise.new)]
          handles := w.handles ++ [w.promises.length] } w.promises.length = [] :=
        h.fresh _ (Nat.le_refl _)
      rw [hdeeds, hnone _ fun c hc => List.mem_append_right _ hc,
        hnone _ fun c hc => List.mem_append_left _ hc]
      exact ⟨rfl, Law.new d⟩
  · obtain ⟨hook, cell, hi, hcompletion⟩ := h.known c hc i result hh
    have hlt := (List.getElem?_eq_some_iff.mp hi).1
    exact ⟨hook, cell, by rw [List.getElem?_append_left hlt, hi], hcompletion⟩
  · rw [List.length_append] at hi
    exact h.fresh i (by omega)

theorem perform (hplay : ∀ step, Keeps (play step)) (step : Step) :
    Keeps (Telling.perform play step) := by
  cases step with
  | new d => exact new d
  | clone p =>
    refine quietly (fun w => ?_) fun w => ?_ <;>
    · rw [PromiseScript.perform, Play.run_bind, Play.run_get]
      dsimp only
      split <;> rfl
  | complete p result => exact complete hplay p result
  | isDone p | inspect p | same p q =>
    refine quietly (fun w => ?_) fun w => ?_ <;>
    · rw [PromiseScript.perform, Play.run_bind, Play.run_get]
      dsimp only
      split <;> rfl
  | listen p label next panic => exact listen hplay p ⟨label, next, panic⟩
  | dispatch label hook next panic => exact submit_unheard rfl _
  | dispatchWith label next panic => exact submit_unheard rfl _
  | run count => exact bind (runQueue hplay count 0) fun _ => pure _
  | inspectDispatch hook | reject on | unknown => exact quietly (fun _ => rfl) fun _ => rfl

theorem play_depth (depth : Nat) (step : Step) : Keeps (Telling.play depth step) := by
  induction depth generalizing step with
  | zero => exact pure _
  | succ depth ih => exact perform ih step

end Keeps

theorem Lawful.empty : Lawful none [] {} where
  law i d cell hi := by
    rw [List.getElem?_nil] at hi
    cases hi
  known c hc := absurd hc List.not_mem_nil
  fresh _ _ := rfl

theorem Lawful.turns {w : Account} (h : Lawful none [] w) (depth : Nat) (steps : List Step) :
    Lawful none [] (Account.turns depth w steps).2 := by
  induction steps generalizing w with
  | nil => exact h
  | cons step steps ih =>
    refine ih (Keeps.play_depth depth step [] _ ?_)
    exact h.frame rfl rfl (fun _ => rfl) (fun _ => rfl) fun c hc => .inl hc

/-- All promises obey the law, and nothing is under way. -/
def Account.InOrder (w : Account) : Prop :=
  ∀ i d cell, w.promises[i]? = some (d, cell) → Law d (w.deeds i) [] (deliveries i w.queue) 0

/-- What the account of a script tells. -/
structure Accounted (depth : Nat) (steps : List Step) : Prop where
  /-- Without its history, the account is what the script does. -/
  erased : Prod.map id Account.toWorld (Account.turns depth {} steps) = turns depth {} steps
  /-- The listeners that it tells of are those that hear a result by the log, in order. -/
  heard : toldIn (Account.turns depth {} steps).2.history =
    heardIn ((turns depth {} steps).1.flatMap Turn.log)
  inOrder : (Account.turns depth {} steps).2.InOrder

/-- A play returns, and no listener and no callback runs in it: nothing is recorded but what failure
hooks are told. -/
def Apart {α : Type} (w : World) (x : Play α) : Prop :=
  ∃ a v events, x.run.run w = (.ok a, v) ∧ v.log = w.log ++ events ∧
    ∀ e ∈ events, ∃ cause, e = .hookTold cause

/-- What a call on a handle does, when routines are played in some way. -/
structure Calls (play : Step → Play Answer) (w : World) (p : Nat) (d : Dispatch)
    (cell : Promise Int Routine) : Prop where
  /-- A result that is refused has no effect. -/
  refused_result : ∀ result e, cell.complete result = .error e →
    (complete play p result).run.run w = (.ok (.failed e), w)
  /-- A listener that is refused does not run. -/
  refused_listener : ∀ r e, cell.attach r = .error e →
    (listen play p r).run.run w = (.ok (.failed e), w)
  /-- Unless the promise is direct its listener does not run in the call. -/
  apart : d ≠ .direct → (∀ result, Apart w (complete play p result)) ∧
    ∀ r, Apart w (listen play p r)

theorem Apart.answer {w : World} (answer : Answer) : Apart w (pure answer) :=
  ⟨answer, w, [], rfl, (List.append_nil _).symm, nofun⟩

/-- A promise that takes something may deliver apart from the call. -/
theorem Apart.deliver {play : Step → Play Answer} {v w : World} {i : Nat} {d : Dispatch}
    (hd : d ≠ .direct) (hv : v.log = w.log) (r : Routine) (result : Except ClientError Int)
    (answer : Answer) :
    ∃ a u events, (do PromiseScript.deliver play i d r result; pure answer : Play Answer).run.run v =
      (.ok a, u) ∧ u.log = w.log ++ events ∧ ∀ e ∈ events, ∃ cause, e = .hookTold cause := by
  cases d with
  | direct => exact absurd rfl hd
  | queued hook =>
    obtain ⟨u, events, hrun, hlog, -, hhook⟩ :=
      Callback.run_submit ⟨some (i, result), r, completionFor hook⟩ v
    refine ⟨answer, u, events, ?_, by rw [hlog, hv], hhook hook rfl⟩
    rw [Play.run_bind, PromiseScript.deliver, hrun]
    rfl

theorem calls {play : Step → Play Answer} {w : World} {p i : Nat} {d : Dispatch}
    {cell : Promise Int Routine} (h : w.promise? p = some (i, d, cell)) :
    Calls play w p d cell := by
  refine ⟨fun result e he => ?_, fun r e he => ?_, fun hd => ⟨fun result => ?_, fun r => ?_⟩⟩
  · simp only [complete, Play.run_bind, Play.run_get, h, he]
    rfl
  · simp only [listen, Play.run_bind, Play.run_get, h, he]
    rfl
  · simp only [Apart, complete, Play.run_bind, Play.run_get, h]
    rcases cell.complete result with e | ⟨cell, _ | r⟩
    · exact Apart.answer _
    · exact ⟨_, _, [], rfl, (List.append_nil _).symm, nofun⟩
    · exact Apart.deliver hd rfl r result .ok
  · simp only [Apart, listen, Play.run_bind, Play.run_get, h]
    rcases cell.attach r with e | ⟨cell, _ | result⟩
    · exact Apart.answer _
    · exact ⟨_, _, [], rfl, (List.append_nil _).symm, nofun⟩
    · exact Apart.deliver hd rfl r result .ok

end PromiseScript

end PubSub
