import PubSub.Proofs.Sound

/-! # How a signal is handled

A signal is dealt with on the course of the session, or it is passed over, or
it fires a transition. Every action of a transition issues effects of its own
kinds, so the kind of an effect tells which actions it can come from.
-/

namespace PubSub

def Effect.isOfWork : Effect → Bool
  | settle .. => true
  | request (.send ..) | request (.subscribe ..) | request (.unsubscribe ..) => true
  | _ => false

namespace Action

def issues : Action → Effect → Bool
  | requestEndpoint, .request .lookup => true
  | openConnection, .request (.connect ..) => true
  | closeConnection, .request (.disconnect _) => true
  | startRetryTimer, .request (.schedule ..) | startRetryTimer, .request (.cancel _) => true
  | cancelRetryTimer, .request (.cancel _) => true
  | markEndpointGood, .request (.report _) => true
  | remakeSubscriptions, .request (.subscribe ..) => true
  | remakeSubscriptions, .post .subscriptionsRemade => true
  | breakConnection, .finishSend .. | breakConnection, .takeDrain => true
  | cleanup, e => e.isEnding
  | flushCallbacks, .flush => true
  | succeedPendingStarts, .settle .. | failPendingStarts, .settle .. => true
  | succeedPendingStops, .settle .. => true
  | replayPendingWork, e => e.isOfWork
  | notifyStarting, .notify .starting | notifyStarted, .notify .started => true
  | notifyRestarted, .notify .restarted => true
  | notifyRetrying, .notify (.retrying _) | notifyStopped, .notify (.stopped _) => true
  | releaseCallbacks, .release => true
  | resumeStart, .post (.start none) => true
  | _, _ => false

end Action

namespace Turn

variable {m m' : Marks} {due env : Awaited → Nat} {t t' : Turn}

def Issues (kind : Effect → Prop) (t t' : Turn) : Prop :=
  ∃ es, t'.effects = t.effects ++ es ∧ ∀ e ∈ es, kind e

namespace Issues

variable {kind kind' : Effect → Prop} {t'' : Turn}

theorem refl (t : Turn) : Issues kind t t := ⟨[], by simp, by simp⟩

theorem trans (h : Issues kind t t') (h' : Issues kind t' t'') : Issues kind t t'' := by
  obtain ⟨es, he, hk⟩ := h
  obtain ⟨es', he', hk'⟩ := h'
  refine ⟨es ++ es', by simp [he', he], fun e hm => ?_⟩
  exact (List.mem_append.mp hm).elim (hk e) (hk' e)

theorem imp (h : Issues kind t t') (hk : ∀ e, kind e → kind' e) : Issues kind' t t' := by
  obtain ⟨es, he, hs⟩ := h
  exact ⟨es, he, fun e hm => hk e (hs e hm)⟩

theorem of_effects {l : List Effect} (he : t'.effects = t.effects ++ l)
    (hk : ∀ e ∈ l, kind e) : Issues kind t t' := ⟨l, he, hk⟩

theorem of_effect {e : Effect} (he : t'.effects = t.effects ++ [e]) (hk : kind e) :
    Issues kind t t' :=
  of_effects he fun _ hm => List.mem_singleton.mp hm ▸ hk

theorem of_map {α : Type} {xs : List α} {f : α → Effect} (he : t'.effects = t.effects ++ xs.map f)
    (hk : ∀ x, kind (f x)) : Issues kind t t' := by
  refine of_effects he fun e hm => ?_
  obtain ⟨x, -, rfl⟩ := List.mem_map.mp hm
  exact hk x

theorem mem (h : Issues kind t t') {e : Effect} (he : e ∈ t'.effects) :
    e ∈ t.effects ∨ kind e := by
  obtain ⟨es, hes, hk⟩ := h
  rw [hes, List.mem_append] at he
  exact he.imp id (hk e)

end Issues

theorem issues_execute (t : Turn) (w : Work) : Issues (·.isOfWork) t (t.execute w) := by
  unfold execute
  split
  · exact .of_effects (l := []) (by simp) (by simp)
  · split
    · exact .of_effects (effects_executeSend ..) (by simp [Effect.isOfWork])
    · unfold executeSubscribe
      split
      · exact .of_effects (effects_request ..) (by simp [Effect.isOfWork])
      · split
        · exact .of_effects (effects_settle ..) (by simp [Effect.isOfWork])
        · exact .of_effects (l := []) (by simp) (by simp)
    · unfold executeUnsubscribe
      split
      · exact .of_effects (effects_settle ..) (by simp [Effect.isOfWork])
      · split
        · exact .of_effects (effects_request ..) (by simp [Effect.isOfWork])
        · exact .of_effects (l := []) (by simp) (by simp)

theorem onWork_of_started (h : t.core.phase = .started) (w : Work) : t.onWork w = t.execute w := by
  rw [onWork, h]
  rfl

theorem phase_onWork (t : Turn) (w : Work) : (t.onWork w).core.phase = t.core.phase :=
  congrArg Course.phase (stays_onWork t w).course

theorem issues_replay (h : t.core.phase = .started) (ws : List Work) :
    Issues (·.isOfWork) t (t.replay ws) := by
  induction ws generalizing t with
  | nil => exact .refl t
  | cons w ws ih =>
    have hw : Issues (·.isOfWork) t (t.onWork w) := onWork_of_started h w ▸ issues_execute t w
    exact hw.trans (ih ((phase_onWork t w).trans h))

theorem issues_replayPending (h : t.core.phase = .started) :
    Issues (·.isOfWork) t t.replayPending :=
  issues_replay (t := t.update fun c => { c with pendingWork := [] }) h _

/-- Every action that does what it is for issues effects of its own kinds. -/
theorem issues_perform (hc : Control m t.core.course due) {a : Action} (ha : m.act a = some m')
    (hp : a = .replayPendingWork → t.core.phase = .started) (closed : Turn → Turn) :
    Issues (a.issues ·) t (t.perform closed a) := by
  cases a with
  | openConnection =>
    obtain ⟨e, -, -, he⟩ := hc.perform_openConnection ha closed
    exact .of_effect he rfl
  | closeConnection =>
    rw [hc.perform_closeConnection ha]
    exact .of_effect (effects_request ..) rfl
  | remakeSubscriptions =>
    simp only [Marks.act, Option.ite_none_right_eq_some] at ha
    have he := (remake_of_connection t (hc.connection_of_connected ha.1.1)).2
    split at he
    · exact .of_effect he rfl
    · exact .of_map he fun _ => rfl
  | breakConnection =>
    have he := t.effects_breakConnection
    rw [List.append_assoc] at he
    refine .of_effects he ?_
    simp only [List.mem_append, List.mem_map, List.mem_singleton]
    rintro e (⟨send, -, rfl⟩ | rfl) <;> rfl
  | cleanup => exact ending_cleanup t
  | replayPendingWork => exact issues_replayPending (hp rfl)
  | startRetryTimer =>
    refine .of_effects ((effects_startTimer t).trans (List.append_assoc ..)) ?_
    simp only [List.mem_append, List.mem_map, List.mem_singleton]
    rintro e (⟨timer, -, rfl⟩ | rfl) <;> rfl
  | cancelRetryTimer =>
    exact .of_map (effects_cancelTimer t) fun _ => rfl
  | markEndpointGood => exact .of_map (effects_reportEndpoint t) fun _ => rfl
  | succeedPendingStarts | failPendingStarts =>
    exact .of_map (effects_settleStarts t _) fun _ => rfl
  | succeedPendingStops => exact .of_map (effects_settleStops t) fun _ => rfl
  | resumeStart =>
    have he := effects_resumeStart t
    split at he
    · exact .of_effects he (List.forall_mem_nil _)
    · exact .of_effect he rfl
  | discardConnection | resetSession => exact .of_effects (l := []) (by simp [perform]) (by simp)
  | notifyRetrying | notifyStopped =>
    exact .of_effect (effects_notifyCause t _) rfl
  | requestEndpoint | flushCallbacks | notifyStarting | notifyStarted | notifyRestarted
  | releaseCallbacks => exact .of_effect (effects_emit ..) rfl

end Turn

theorem Signal.not_isSteady_of_trigger {x : Signal} {c : Core} {trigger : Trigger}
    (h : x.trigger? c = some trigger) : x.isSteady = false := by
  cases trigger?_eq_some_iff.mp h <;> rfl

open Turn

/-- The signal has made its change, and its transition has led to the next phase. -/
def Core.entering (c : Core) (x : Signal) (next : Phase) : Turn :=
  ((begin c).update x.prepare).enter next

@[simp]
theorem Core.core_entering (c : Core) (x : Signal) (next : Phase) :
    (c.entering x next).core = { x.prepare c with phase := next } := rfl

@[simp]
theorem Core.effects_entering (c : Core) (x : Signal) (next : Phase) :
    (c.entering x next).effects = [.publish next.view] := rfl

theorem Core.handle_of_transition {c : Core} {x : Signal} {trigger : Trigger} {next : Phase}
    {actions : List Action} (ht : x.trigger? c = some trigger)
    (hn : c.phase.transition trigger = some ⟨next, actions⟩) :
    c.handle x = actions.foldl (perform fireClosed) (c.entering x next) := by
  rw [Core.handle, handle_of_not_isSteady _ (Signal.not_isSteady_of_trigger ht), core_begin, ht]
  simp only [fire, fireWith, core_update, Signal.phase_prepare, core_begin, hn]
  rfl

def Core.Performs (c : Core) (x : Signal) (a : Action) (t : Turn) : Prop :=
  ∃ trigger next before after, x.trigger? c = some trigger ∧
    c.phase.transition trigger = some ⟨next, before ++ a :: after⟩ ∧
    t = before.foldl (perform fireClosed) (c.entering x next)

inductive Handles (c : Core) (env : Awaited → Nat) (x : Signal) : Prop where
  | steady (hx : x.isSteady) (stays : (begin c).Stays (c.handle x))
  /-- The signal comes too late, or its trigger has no transition. -/
  | passed (hx : x.isSteady = false) (none : (x.trigger? c).bind c.phase.transition = none)
    (spend : ∀ trigger, x.trigger? c = some trigger → c.phase.marks.spend trigger ≠ Option.none)
    (f : Core → Core) (hf : f = id ∨ f = x.prepare ∧ (x.trigger? c).isSome)
    (eq : c.handle x = (begin c).update f)
  | fires {trigger : Trigger} {next : Phase} {actions : List Action} {m m' : Marks}
    (hx : x.isSteady = false) (trigger? : x.trigger? c = some trigger)
    (transition : c.phase.transition trigger = some ⟨next, actions⟩)
    (spend : c.phase.marks.spend trigger = some m)
    (control : Control m (c.entering x next).core.course ((c.entering x next).due env))
    (act : actions.foldlM Marks.act m = some m') (le : m'.le next.marks)
    (eq : c.handle x = actions.foldl (perform fireClosed) (c.entering x next))

namespace Sound

variable {lost : ConnectionId → Topic → Prop} {c : Core} {d env : Awaited → Nat} {x : Signal}

theorem handles (h : Sound lost c d) (hd : ∀ a, d a = env a + x.awaited.count a)
    (hown : .lookup ∈ x.awaited → env .resume = 0) : Handles c env x := by
  by_cases hx : x.isSteady
  · exact .steady hx (stays_handle (begin c) hx)
  · have hx : x.isSteady = false := by simpa using hx
    have heq := handle_of_not_isSteady (begin c) hx
    cases ht : x.trigger? (begin c).core with
    | none =>
      have ht : x.trigger? c = none := ht
      exact .passed hx (by rw [ht]; rfl) (by simp [ht]) id (.inl rfl)
        (by rw [Core.handle, heq, core_begin, ht]; rfl)
    | some trigger =>
      obtain ⟨m, hm, hc⟩ := h.control.spend hd hown (h.remade_ne_absent hd) ht
      have hm' : ((begin c).update x.prepare).core.phase.marks.spend trigger = some m := by
        simpa using hm
      rw [ht] at heq
      rcases fire_cases _ hm' with ⟨he, hn, -⟩ | ⟨next, actions, m', hn, ha, hle, he⟩
      · have ht : x.trigger? c = some trigger := ht
        exact .passed hx (by rw [ht]; simpa using hn) (by simp [ht, hm]) _ (.inr ⟨rfl, by simp [ht]⟩)
          (by rw [Core.handle, heq]; exact he)
      · have hc : Control m _ _ := Control.enter (t := (begin c).update x.prepare) hc next
        exact .fires hx ht (by simpa using hn) hm hc ha hle (by rw [Core.handle, heq]; exact he)

end Sound

namespace Handles

variable {c : Core} {env : Awaited → Nat} {x : Signal} {t : Turn} {a : Action} {e : Effect}

theorem control_of_transition (h : Handles c env x) {trigger : Trigger} {next : Phase}
    {actions : List Action} (ht : x.trigger? c = some trigger)
    (hn : c.phase.transition trigger = some ⟨next, actions⟩) :
    ∃ m m', c.phase.marks.spend trigger = some m ∧
      Control m (c.entering x next).core.course ((c.entering x next).due env) ∧
      actions.foldlM Marks.act m = some m' := by
  cases h with
  | steady hx stays => exact absurd hx (by simp [Signal.not_isSteady_of_trigger ht])
  | passed hx hnone _ f hf heq => simp [ht, hn] at hnone
  | @fires trigger' next' actions' m m' hx ht' hn' hm hc ha hle heq =>
    obtain rfl := Option.some.inj (ht.symm.trans ht')
    obtain ⟨rfl, rfl⟩ : next = next' ∧ actions = actions' := by
      simpa using hn.symm.trans hn'
    exact ⟨m, m', hm, hc, ha⟩

/-- A trigger comes only where the marks of the phase let it come. -/
theorem spend (h : Handles c env x) {trigger : Trigger} (ht : x.trigger? c = some trigger) :
    c.phase.marks.spend trigger ≠ none := by
  cases h with
  | steady hx stays => exact absurd hx (by simp [Signal.not_isSteady_of_trigger ht])
  | passed hx hnone hspend f hf heq => exact hspend trigger ht
  | fires hx ht' hn hm hc ha hle heq =>
    obtain rfl := Option.some.inj (ht.symm.trans ht')
    simp [hm]

theorem phase_of_transition (h : Handles c env x) {trigger : Trigger} {next : Phase}
    {actions : List Action} (ht : x.trigger? c = some trigger)
    (hn : c.phase.transition trigger = some ⟨next, actions⟩) :
    (c.handle x).core.phase = next := by
  obtain ⟨m, m', -, hc, ha⟩ := h.control_of_transition ht hn
  rw [Core.handle_of_transition ht hn]
  exact (hc.performAll ha fireClosed).2

theorem phase_cases (h : Handles c env x) : (c.handle x).core.phase = c.phase ∨
    ∃ trigger next actions, x.trigger? c = some trigger ∧
      c.phase.transition trigger = some ⟨next, actions⟩ ∧ (c.handle x).core.phase = next := by
  cases h with
  | steady hx stays => exact .inl (congrArg Course.phase stays.course)
  | passed hx hnone spend f hf heq =>
    rw [heq]
    rcases hf with rfl | ⟨rfl, -⟩
    · exact .inl rfl
    · exact .inl (x.phase_prepare c)
  | @fires trigger next actions m m' hx ht hn hm hc ha hle heq =>
    rw [heq, (hc.performAll ha fireClosed).2]
    exact .inr ⟨trigger, next, actions, ht, hn, rfl⟩

/-- The phase changes before the actions of a transition are performed. -/
theorem phase_performs (h : Handles c env x) (hp : c.Performs x a t) :
    t.core.phase = (c.handle x).core.phase := by
  obtain ⟨trigger, next, before, after, ht, hn, rfl⟩ := hp
  obtain ⟨m, m', hm, hc, ha⟩ := h.control_of_transition ht hn
  rw [List.foldlM_append] at ha
  obtain ⟨m₁, hbefore, -⟩ := Option.bind_eq_some_iff.mp ha
  rw [h.phase_of_transition ht hn]
  exact (hc.performAll hbefore fireClosed).2

theorem performs (h : Handles c env x) (hp : c.Performs x a t) :
    ∃ m m', Control m t.core.course (t.due env) ∧ m.act a = some m' ∧
      (a = .replayPendingWork → t.core.phase = .started) := by
  have hphase := h.phase_performs hp
  obtain ⟨trigger, next, before, after, ht, hn, rfl⟩ := hp
  obtain ⟨m, m', hm, hc, ha⟩ := h.control_of_transition ht hn
  rw [List.foldlM_append] at ha
  obtain ⟨m₁, hbefore, ha⟩ := Option.bind_eq_some_iff.mp ha
  obtain ⟨m₂, ha, -⟩ := Option.bind_eq_some_iff.mp ha
  refine ⟨m₁, m₂, (hc.performAll hbefore fireClosed).1, ha, ?_⟩
  rintro rfl
  rw [hphase, h.phase_of_transition ht hn]
  exact Phase.next_of_replayPendingWork hn (by simp)

end Handles

theorem Turn.mem_performAll {actions : List Action} {closed : Turn → Turn} {t : Turn} {e : Effect}
    (he : e ∈ (actions.foldl (perform closed) t).effects) :
    e ∈ t.effects ∨ ∃ before a after, actions = before ++ a :: after ∧
      e ∉ (before.foldl (perform closed) t).effects ∧
      e ∈ ((before.foldl (perform closed) t).perform closed a).effects := by
  induction actions generalizing t with
  | nil => exact .inl he
  | cons a actions ih =>
    by_cases ht : e ∈ t.effects
    · exact .inl ht
    · refine .inr ?_
      rcases ih he with ha | ⟨before, b, after, rfl, hn, hb⟩
      · exact ⟨[], a, actions, rfl, ht, ha⟩
      · exact ⟨a :: before, b, after, rfl, hn, hb⟩

namespace Handles

variable {c : Core} {env : Awaited → Nat} {x : Signal} {e : Effect}

/-- The effects of a turn are steady, or they are issued by an action of its transition. -/
theorem mem_effects (h : Handles c env x) (he : e ∈ (c.handle x).effects) :
    x.isSteady ∧ e.isSteady ∨ (∃ state, e = .publish state) ∨
      ∃ a t, c.Performs x a t ∧ a.issues e ∧ e ∈ (t.perform fireClosed a).effects ∧
        e ∉ t.effects := by
  cases h with
  | steady hx stays =>
    obtain ⟨es, hes, hs⟩ := stays.effects
    rw [hes, effects_begin, List.nil_append] at he
    exact .inl ⟨hx, hs e he⟩
  | passed hx hnone _ f hf heq => simp [heq] at he
  | @fires trigger next actions m m' hx ht hn hm hc ha hle heq =>
    rw [heq] at he
    rcases mem_performAll he with he | ⟨before, a, after, rfl, hbefore, he⟩
    · exact .inr (.inl ⟨next.view, by simpa using he⟩)
    · have hfires : Handles c env x := .fires hx ht hn hm hc ha hle heq
      have hmoment : c.Performs x a _ := ⟨trigger, next, before, after, ht, hn, rfl⟩
      obtain ⟨m₁, m₂, hc₁, ha₁, hp⟩ := hfires.performs hmoment
      have hi := ((issues_perform hc₁ ha₁ hp fireClosed).mem he).resolve_left hbefore
      exact .inr (.inr ⟨a, _, hmoment, hi, he, hbefore⟩)

end Handles

end PubSub
