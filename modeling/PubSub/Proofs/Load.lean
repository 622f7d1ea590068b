import Mathlib.Data.List.TakeWhile
import PubSub.Proofs.Handling

/-! # What a session has in hand

The kept work, the unanswered sends and the rows are the load of a session.
Four actions deal with the load, and so do work and its answers; all other
actions and signals leave it, and issue no effect that has to do with it.
-/

namespace PubSub

open Turn

/-- The part of a core that work and its answers change. -/
structure Load where
  pendingWork : List Work
  sends : Nat
  outstanding : List OutstandingSend
  subscriptions : Subscriptions
  remakesOutstanding : Nat

def Core.load (c : Core) : Load where
  pendingWork := c.pendingWork
  sends := c.sends
  outstanding := c.outstanding
  subscriptions := c.subscriptions
  remakesOutstanding := c.remakesOutstanding

namespace Effect

def transmits : Effect → Bool
  | request (.send ..) | request (.subscribe ..) | request (.unsubscribe ..) => true
  | _ => false

def isOfLoad : Effect → Bool
  | finishSend .. | post .subscriptionsRemade | notify (.unsubscribed ..) => true
  | e => e.transmits

theorem transmits_of_not_isOfLoad {e : Effect} (he : e.isOfLoad = false) : e.transmits = false := by
  unfold isOfLoad at he
  split at he <;> first | cases he | exact he

end Effect

namespace Issued

/-- The operation that is decided: it is asked of the server, or the client answers it by
itself, which only a started client does. -/
def decided? (i : Issued) : Option PromiseId :=
  match i.effect with
  | .request (.subscribe _ params) =>
    (i.core.subscriptions.find? params.topic).bind (·.subscribing)
  | .request (.unsubscribe _ topic _) =>
    (i.core.subscriptions.find? topic).bind fun row => row.unsubscribing.map (·.promise)
  | .settle p (.error (.alreadySubscribed _)) | .settle p (.error (.notSubscribed _)) =>
    if i.core.phase = .started then some p else none
  | _ => none

def isOfLoad (i : Issued) : Bool := i.effect.isOfLoad || i.decided?.isSome

theorem decided?_settle {c : Core} (hp : c.phase ≠ .started) (p : PromiseId) (result : Outcome) :
    decided? ⟨.settle p result, c⟩ = none := by
  cases result with
  | ok => rfl
  | error e =>
    cases e with
    | alreadySubscribed | notSubscribed => exact if_neg hp
    | _ => rfl

theorem isOfLoad_eq_false {i : Issued} :
    i.isOfLoad = false ↔ i.effect.isOfLoad = false ∧ i.decided? = none := by
  simp [isOfLoad]

end Issued

namespace Action

def isPlain : Action → Bool
  | remakeSubscriptions | breakConnection | cleanup | replayPendingWork => false
  | _ => true

end Action

/-- The actions of a transition deal with the load once, or a lost connection is the end too. -/
inductive LoadActions : List Action → Prop
  | plain {actions : List Action} (h : ∀ a ∈ actions, a.isPlain) : LoadActions actions
  | once {before after : List Action} {a : Action} (ha : a.isPlain = false)
    (hbefore : ∀ a ∈ before, a.isPlain) (hafter : ∀ a ∈ after, a.isPlain) :
    LoadActions (before ++ a :: after)
  | twice {middle after : List Action} (hmiddle : ∀ a ∈ middle, a.isPlain)
    (hafter : ∀ a ∈ after, a.isPlain) :
    LoadActions (.breakConnection :: middle ++ .cleanup :: after)

theorem LoadActions.of_dropWhile {actions : List Action}
    (h : (actions.dropWhile (·.isPlain)).tail.all (·.isPlain)) : LoadActions actions := by
  have hsplit : actions.takeWhile (·.isPlain) ++ actions.dropWhile (·.isPlain) = actions :=
    List.takeWhile_append_dropWhile
  have hbefore : ∀ a ∈ actions.takeWhile (·.isPlain), a.isPlain :=
    fun a ha => List.mem_takeWhile_imp ha
  cases hd : actions.dropWhile (·.isPlain) with
  | nil =>
    rw [hd, List.append_nil] at hsplit
    exact .plain (hsplit ▸ hbefore)
  | cons a after =>
    have ha : a.isPlain = false := by
      have hfirst := List.dropWhile_get_zero_not Action.isPlain actions (by simp [hd])
      have hget : (actions.dropWhile (·.isPlain))[0]? = some a := by rw [hd]; rfl
      rw [List.getElem?_eq_some_iff] at hget
      obtain ⟨_, hget⟩ := hget
      simpa [hget] using hfirst
    rw [hd] at hsplit h
    exact hsplit ▸ .once ha hbefore (List.all_eq_true.mp h)

/-- A client whose starts fail is not started. -/
theorem Phase.next_of_failPendingStarts {p next : Phase} {trigger : Trigger} {actions : List Action}
    (h : p.transition trigger = some ⟨next, actions⟩) (ha : .failPendingStarts ∈ actions) :
    next ≠ .started := by
  have hall : ∀ (p : Phase) (trigger : Trigger), ∀ n ∈ p.transition trigger,
      .failPendingStarts ∈ n.actions → n.next ≠ .started := by decide
  exact hall _ _ _ h ha

theorem Phase.loadActions {p next : Phase} {trigger : Trigger} {actions : List Action}
    (h : p.transition trigger = some ⟨next, actions⟩) : LoadActions actions := by
  have hall : ∀ (p : Phase) (trigger : Trigger), ∀ n ∈ p.transition trigger,
      (n.actions.dropWhile (·.isPlain)).tail.all (·.isPlain) ∨
        n.actions = .breakConnection :: .discardConnection :: finish := by decide
  rcases hall _ _ _ h with hd | rfl
  · exact .of_dropWhile hd
  · have hmiddle : ∀ a ∈ [Action.discardConnection], a.isPlain := by simp [Action.isPlain]
    exact .twice hmiddle (by simp [Action.isPlain])

namespace Signal

/-- The signal is neither work nor an answer to work. -/
def isPlain : Signal → Bool
  | work _ | sent .. | subscribed .. | unsubscribed .. => false
  | _ => true

theorem isPlain_of_isSteady {x : Signal} (hx : x.isSteady = false) : x.isPlain := by
  cases x with
  | work | sent | subscribed | unsubscribed => cases hx
  | _ => rfl

@[simp]
theorem load_prepare (x : Signal) (c : Core) : (x.prepare c).load = c.load := by
  cases x with
  | endpointAnswered result =>
    rcases result with e | (e | delay) <;> simp [prepare, Core.recordError_eq, Core.load]
  | opened k result => cases result <;> simp [prepare, Core.recordError_eq, Core.load]
  | _ => simp [prepare, Core.recordError_eq, Core.load]

end Signal

namespace Turn

variable {m m' : Marks} {due env : Awaited → Nat} {t t' t'' : Turn}

def Extends (t t' : Turn) : Prop := t.issued <+: t'.issued

namespace Extends

theorem refl (t : Turn) : t.Extends t := List.prefix_rfl

theorem trans (h : t.Extends t') (h' : t'.Extends t'') : t.Extends t'' := List.IsPrefix.trans h h'

theorem emit (h : t.Extends t') (e : Effect) : t.Extends (t'.emit e) :=
  h.trans (List.prefix_append ..)

theorem update (h : t.Extends t') (f : Core → Core) : t.Extends (t'.update f) := h

theorem foldl {α : Type} {f : Turn → α → Turn} (hf : ∀ (u : Turn) x, u.Extends (f u x))
    (xs : List α) (t : Turn) : t.Extends (xs.foldl f t) := by
  induction xs generalizing t with
  | nil => exact .refl t
  | cons x xs ih => exact (hf t x).trans (ih (f t x))

theorem settleAll (h : t.Extends t') (ps : List PromiseId) (result : Outcome) :
    t.Extends (t'.settleAll ps result) :=
  h.trans (foldl (f := settle result) (fun u p => (refl u).emit (.settle p result)) ps t')

theorem issued (h : t.Extends t') {es : List Effect} (he : t'.effects = t.effects ++ es) :
    ∃ more, t'.issued = t.issued ++ more ∧ more.map (·.effect) = es := by
  obtain ⟨more, hm⟩ := h
  refine ⟨more, hm.symm, ?_⟩
  rw [effects, ← hm, List.map_append] at he
  exact List.append_cancel_left he

theorem abandonSends (h : t.Extends t') (result : Outcome) (sends : List OutstandingSend) :
    t.Extends (sends.foldl (abandonSend result) t') :=
  h.trans (foldl (fun u _ => (refl u).emit _) sends t')

theorem breakConnection (t : Turn) : t.Extends t.breakConnection :=
  ((((refl t).update _).abandonSends ..).update _).emit _

theorem endRow (t : Turn) (row : Subscription) : t.Extends (t.endRow row) := by
  unfold Turn.endRow
  split
  · exact ((refl t).settleAll ..).emit _
  · exact (refl t).settleAll ..

theorem rejectStopped (t : Turn) (w : Work) : t.Extends (t.rejectStopped w) := by
  cases w <;> exact (refl t).emit _

theorem cleanup (t : Turn) : t.Extends t.cleanup := by
  have hrows := ((refl t).update fun c => { c with subscriptions := [] }).trans
    (foldl endRow t.core.subscriptions _)
  have hsends := (hrows.update fun c =>
    { c with remakesOutstanding := 0, outstanding := [] }).abandonSends
      (.error .clientStopped) (t.core.subscriptions.foldl Turn.endRow
        (t.update fun c => { c with subscriptions := [] })).core.outstanding
  simp only [Turn.cleanup]
  split
  · exact (((hsends.update _).trans (foldl rejectStopped ..)).update _).emit _
  · exact ((((hsends.update _).trans (foldl rejectStopped ..)).update _).emit _).emit _

end Extends

structure Leaves (t t' : Turn) : Prop where
  load : t'.core.load = t.core.load
  issued : ∃ more, t'.issued = t.issued ++ more ∧ ∀ i ∈ more, i.isOfLoad = false

namespace Leaves

theorem refl (t : Turn) : t.Leaves t := ⟨rfl, [], by simp, by simp⟩

theorem trans (h : t.Leaves t') (h' : t'.Leaves t'') : t.Leaves t'' := by
  obtain ⟨more, hi, hm⟩ := h.issued
  obtain ⟨more', hi', hm'⟩ := h'.issued
  refine ⟨h'.load.trans h.load, more ++ more', by simp [hi', hi], fun i hmem => ?_⟩
  exact (List.mem_append.mp hmem).elim (hm i) (hm' i)

theorem emit (h : t.Leaves t') {e : Effect} (he : Issued.isOfLoad ⟨e, t'.core⟩ = false) :
    t.Leaves (t'.emit e) :=
  h.trans ⟨rfl, [⟨e, t'.core⟩], rfl, by simpa using he⟩

theorem update (h : t.Leaves t') {f : Core → Core} (hf : (f t'.core).load = t'.core.load) :
    t.Leaves (t'.update f) :=
  h.trans ⟨hf, [], (List.append_nil _).symm, by simp⟩

theorem settleAll (h : t.Leaves t') (ps : List PromiseId) {result : Outcome}
    (hr : ∀ p, Issued.decided? ⟨.settle p result, t'.core⟩ = none) :
    t.Leaves (t'.settleAll ps result) := by
  induction ps generalizing t' with
  | nil => exact h
  | cons p ps ih =>
    have he : Issued.isOfLoad ⟨.settle p result, t'.core⟩ = false :=
      Issued.isOfLoad_eq_false.mpr ⟨rfl, hr p⟩
    exact ih (h.emit he) hr

theorem issues (h : t.Leaves t') : Issues (·.isOfLoad = false) t t' := by
  obtain ⟨more, hi, hm⟩ := h.issued
  refine .of_effects (l := more.map (·.effect)) (by simp [effects, hi]) ?_
  intro e he
  obtain ⟨i, hmem, rfl⟩ := List.mem_map.mp he
  exact (Issued.isOfLoad_eq_false.mp (hm i hmem)).1

end Leaves

theorem leaves_cancelTimer (t : Turn) : t.Leaves t.cancelTimer := by
  unfold cancelTimer
  split
  · exact .refl t
  · exact (Leaves.refl t).emit rfl

theorem leaves_perform (hc : Control m t.core.course due) {a : Action} (ha : m.act a = some m')
    (hp : a.isPlain) (hf : a = .failPendingStarts → t.core.phase ≠ .started)
    (closed : Turn → Turn) : t.Leaves (t.perform closed a) := by
  have hrefl := Leaves.refl t
  cases a with
  | openConnection =>
    simp only [perform, connect]
    split
    · exact hrefl.emit rfl
    · exact (hrefl.update rfl).emit rfl
  | closeConnection =>
    rw [hc.perform_closeConnection ha]
    exact hrefl.emit rfl
  | startRetryTimer => exact ((leaves_cancelTimer t).update rfl).emit rfl
  | cancelRetryTimer => exact leaves_cancelTimer t
  | markEndpointGood =>
    simp only [perform, reportEndpoint]
    split
    · exact hrefl.update rfl
    · exact (hrefl.update rfl).emit rfl
  | succeedPendingStarts | succeedPendingStops =>
    exact (hrefl.update rfl).settleAll _ fun _ => rfl
  | failPendingStarts =>
    exact (hrefl.update rfl).settleAll _ fun p => Issued.decided?_settle (hf rfl) p _
  | resumeStart =>
    simp only [perform, resumeStart]
    split
    · exact hrefl
    · exact hrefl.emit rfl
  | discardConnection | resetSession =>
    simp only [perform]
    exact hrefl.update rfl
  | notifyRetrying | notifyStopped => exact (hrefl.update rfl).emit rfl
  | requestEndpoint | flushCallbacks | notifyStarting | notifyStarted | notifyRestarted
  | releaseCallbacks => exact hrefl.emit rfl
  | remakeSubscriptions | breakConnection | cleanup | replayPendingWork => cases hp

theorem leaves_performAll (hc : Control m t.core.course (t.due env)) {actions : List Action}
    (ha : actions.foldlM Marks.act m = some m') (hp : ∀ a ∈ actions, a.isPlain)
    (hf : .failPendingStarts ∈ actions → t.core.phase ≠ .started) (closed : Turn → Turn) :
    t.Leaves (actions.foldl (perform closed) t) := by
  induction actions generalizing m t with
  | nil => exact .refl t
  | cons a actions ih =>
    obtain ⟨m₁, ha₁, ha⟩ := Option.bind_eq_some_iff.mp ha
    refine (leaves_perform hc ha₁ (hp a (List.mem_cons_self ..)) ?_ closed).trans
      (ih (hc.perform ha₁ closed) ha (fun b hb => hp b (List.mem_cons_of_mem _ hb)) ?_)
    · rintro rfl
      exact hf (List.mem_cons_self ..)
    · intro hm
      rw [hc.phase_perform ha₁]
      exact hf (List.mem_cons_of_mem _ hm)

theorem leaves_acknowledge (t : Turn) (d : PendingDelivery) : t.Leaves (t.acknowledge d) := by
  unfold acknowledge
  split
  · exact (Leaves.refl t).emit rfl
  · exact .refl t

/-- A delivery and its confirmation have nothing to do with the load. -/
theorem leaves_handle (t : Turn) {x : Signal} (hx : x.isSteady) (hp : x.isPlain) :
    t.Leaves (t.handle x) := by
  cases x with
  | delivered k m =>
    simp only [handle, onDelivered]
    split
    · split
      · exact .refl t
      · split_ifs
        · exact (Leaves.refl t).emit rfl
        · exact (Leaves.refl t).emit rfl
        · exact ((Leaves.refl t).update rfl).emit rfl
    · exact .refl t
  | confirm id p =>
    simp only [handle, onConfirm]
    split
    · exact (Leaves.refl t).emit rfl
    · exact (((Leaves.refl t).update rfl).trans (leaves_acknowledge ..)).emit rfl
  | autoConfirm d => exact leaves_acknowledge t d
  | work | sent | subscribed | unsubscribed => cases hp
  | _ => cases hx

end Turn

inductive Loads (c : Core) (x : Signal) : Prop
  | leaves (hp : x.isPlain) (h : (begin c).Leaves (c.handle x))
  | steady (hx : x.isSteady) (hp : x.isPlain = false)
  /-- One action deals with the load. -/
  | once {a : Action} {t : Turn} (ha : a.isPlain = false) (performs : c.Performs x a t)
    (before : (begin c).Leaves t) (after : (t.perform fireClosed a).Leaves (c.handle x))
  /-- The connection is lost, and the session ends with it. -/
  | twice {t u : Turn} (performs : c.Performs x .breakConnection t)
    (performs' : c.Performs x .cleanup u) (before : (begin c).Leaves t)
    (middle : t.breakConnection.Leaves u) (after : u.cleanup.Leaves (c.handle x))

theorem Core.Performs.isPlain {c : Core} {x : Signal} {a : Action} {t : Turn}
    (h : c.Performs x a t) : x.isPlain := by
  obtain ⟨trigger, -, -, -, ht, -⟩ := h
  cases x with
  | work | sent | subscribed | unsubscribed => cases ht
  | _ => rfl

theorem Handles.loads {c : Core} {env : Awaited → Nat} {x : Signal} (h : Handles c env x) :
    Loads c x := by
  cases h with
  | steady hx stays =>
    cases hp : x.isPlain with
    | false => exact .steady hx hp
    | true => exact .leaves hp (leaves_handle (begin c) hx hp)
  | passed hx hnone _ f hf heq =>
    have hload : (f c).load = c.load := by
      rcases hf with rfl | ⟨rfl, -⟩
      · rfl
      · exact x.load_prepare c
    exact .leaves (Signal.isPlain_of_isSteady hx) (heq ▸ (Leaves.refl (begin c)).update hload)
  | @fires trigger next actions m m' hx ht hn hm hc ha hle heq =>
    have henter : (begin c).Leaves (c.entering x next) :=
      (((Leaves.refl (begin c)).update (x.load_prepare c)).update rfl).emit rfl
    have hperforms {before after : List Action} {a : Action}
        (he : actions = before ++ a :: after) :
        c.Performs x a (before.foldl (perform fireClosed) (c.entering x next)) :=
      ⟨trigger, next, before, after, ht, he ▸ hn, rfl⟩
    have hphase : (c.entering x next).core.phase = next := rfl
    have hfail := Phase.next_of_failPendingStarts hn
    cases Phase.loadActions hn with
    | plain hp =>
      exact .leaves (Signal.isPlain_of_isSteady hx)
        (heq ▸ henter.trans (leaves_performAll hc ha hp hfail _))
    | @once before after a hp hbefore hafter =>
      rw [List.foldlM_append] at ha
      obtain ⟨m₁, ha₁, ha⟩ := Option.bind_eq_some_iff.mp ha
      obtain ⟨m₂, ha₂, ha⟩ := Option.bind_eq_some_iff.mp ha
      obtain ⟨hc₁, hp₁⟩ := hc.performAll ha₁ fireClosed
      have hp₂ := (hc₁.phase_perform ha₂ fireClosed).trans hp₁
      refine .once hp (hperforms rfl) (henter.trans (leaves_performAll hc ha₁ hbefore ?_ _)) ?_
      · exact fun hm => hfail (List.mem_append_left _ hm)
      rw [heq, List.foldl_append]
      refine leaves_performAll (hc₁.perform ha₂ fireClosed) ha hafter (fun hm => ?_) _
      rw [hp₂, hphase]
      exact hfail (List.mem_append_right _ (List.mem_cons_of_mem _ hm))
    | @twice middle after hmiddle hafter =>
      rw [List.cons_append, List.foldlM_cons] at ha
      obtain ⟨m₁, ha₁, ha⟩ := Option.bind_eq_some_iff.mp ha
      rw [List.foldlM_append] at ha
      obtain ⟨m₂, ha₂, ha⟩ := Option.bind_eq_some_iff.mp ha
      rw [List.foldlM_cons] at ha
      obtain ⟨m₃, ha₃, ha⟩ := Option.bind_eq_some_iff.mp ha
      have hc₁ := hc.perform ha₁ fireClosed
      have hp₁ := hc.phase_perform ha₁ fireClosed
      obtain ⟨hc₂, hp₂⟩ := hc₁.performAll ha₂ fireClosed
      have hp₃ := (hc₂.phase_perform ha₃ fireClosed).trans (hp₂.trans hp₁)
      have hbreak : c.Performs x .breakConnection (c.entering x next) :=
        ⟨trigger, next, [], _, ht, hn, rfl⟩
      refine .twice hbreak (hperforms rfl) henter
        (leaves_performAll hc₁ ha₂ hmiddle (fun hm => ?_) _) ?_
      · rw [hp₁, hphase]
        exact hfail (List.mem_append_left _ (List.mem_cons_of_mem _ hm))
      rw [heq, List.foldl_append]
      refine leaves_performAll (hc₂.perform ha₃ fireClosed) ha hafter (fun hm => ?_) _
      rw [hp₃, hphase]
      exact hfail (List.mem_append_right _ (List.mem_cons_of_mem _ hm))

end PubSub
