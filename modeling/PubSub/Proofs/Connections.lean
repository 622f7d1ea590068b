import PubSub.Proofs.Arrivals
import PubSub.Proofs.Handling

/-! # One connection at a time

A connection is asked for under a new number, to the endpoint that the lookup
before it has found, and only when each connection before it is over: its
opening has failed, it was lost, or it was closed. The endpoint stays that of
the connection as long as there is one.
-/

namespace PubSub

open Turn

def Ends (k : ConnectionId) (c : Core) (x : Signal) : Prop :=
  c.isCurrent k ∧ ((∃ e, x = .opened k (.error e)) ∨ x = .closed k ∨ ∃ e, x = .disconnected k e)

def Ended {ℓ : Type} (past : List (Move ℓ)) (k : ConnectionId) : Prop := During past (Ends k)

def Effect.connect? : Effect → Option (ConnectionId × Endpoint)
  | request (.connect k e) => some (k, e)
  | _ => none

def Action.connects : Action → Bool
  | openConnection | discardConnection | cleanup => true
  | _ => false

def Trigger.disconnects : Trigger → Bool
  | openRetryable | openFatal | networkError | replaced | connectionClosed => true
  | _ => false

namespace Phase

variable {p next : Phase} {trigger : Trigger} {actions before after : List Action}

/-- A connection is asked for by the only action of a transition. -/
theorem eq_of_openConnection
    (h : p.transition trigger = some ⟨next, before ++ .openConnection :: after⟩) :
    trigger = .endpointFound ∧ before = [] ∧ after = [] ∧ p.isConnected = false := by
  have hall : ∀ (p : Phase) (trigger : Trigger), ∀ n ∈ p.transition trigger,
      .openConnection ∈ n.actions →
        trigger = .endpointFound ∧ n.actions = [.openConnection] ∧ p.isConnected = false := by
    decide
  obtain ⟨ht, ha, hp⟩ := hall _ _ _ h (by simp)
  cases before with
  | nil => exact ⟨ht, rfl, by simpa using ha, hp⟩
  | cons b before => simp at ha

theorem eq_of_markEndpointGood
    (h : p.transition trigger = some ⟨next, before ++ .markEndpointGood :: after⟩) :
    trigger = .openSucceeded ∧ before = [] := by
  have hall : ∀ (p : Phase) (trigger : Trigger), ∀ n ∈ p.transition trigger,
      .markEndpointGood ∈ n.actions →
        trigger = .openSucceeded ∧ .markEndpointGood ∉ n.actions.tail := by decide
  obtain ⟨ht, ha⟩ := hall _ _ _ h (by simp)
  cases before with
  | nil => exact ⟨ht, rfl⟩
  | cons b before => simp at ha

/-- A connection stays until a trigger tells that it is over. -/
theorem connects_of_isConnected (hp : p.isConnected) (ht : trigger.disconnects = false)
    (h : p.transition trigger = some ⟨next, actions⟩) : ∀ a ∈ actions, a.connects = false := by
  have hall : ∀ (p : Phase) (trigger : Trigger), ∀ n ∈ p.transition trigger,
      p.isConnected → trigger.disconnects = false → ∀ a ∈ n.actions, a.connects = false := by
    decide
  exact hall _ _ _ h hp ht

theorem spend_endpointFound (hp : p.isConnected) : p.marks.spend .endpointFound = none := by
  revert hp
  cases p <;> decide

end Phase

namespace Course

variable {c : Course} {actions : List Action}

theorem connection_act {a : Action} (hk : a.connects = false) :
    (c.act a).connection = c.connection := by
  cases a <;> first | rfl | cases hk

theorem connection_foldl_act (hk : ∀ a ∈ actions, a.connects = false) :
    (actions.foldl act c).connection = c.connection := by
  induction actions generalizing c with
  | nil => rfl
  | cons a actions ih =>
    rw [List.foldl_cons, ih fun b hb => hk b (List.mem_cons_of_mem _ hb)]
    exact connection_act (hk a (List.mem_cons_self ..))

/-- Of the actions only one makes a connection. -/
theorem connection_of_foldl_act (ho : .openConnection ∉ actions) {k : ConnectionId}
    (hk : (actions.foldl act c).connection = some k) : c.connection = some k := by
  induction actions generalizing c with
  | nil => exact hk
  | cons a actions ih =>
    have hk := ih (fun h => ho (List.mem_cons_of_mem _ h)) hk
    cases a with
    | openConnection => exact absurd (List.mem_cons_self ..) ho
    | discardConnection | cleanup => cases hk
    | _ => exact hk

theorem endpoint_foldl_act : (actions.foldl act c).endpoint = c.endpoint := by
  induction actions generalizing c with
  | nil => rfl
  | cons a actions ih =>
    rw [List.foldl_cons, ih]
    cases a <;> rfl

end Course

namespace Turn

variable {m m' : Marks} {env : Awaited → Nat} {t : Turn}

theorem connection_performAll (hc : Control m t.core.course (t.due env)) {actions : List Action}
    (ha : actions.foldlM Marks.act m = some m') (hk : ∀ a ∈ actions, a.connects = false)
    (closed : Turn → Turn) :
    (actions.foldl (perform closed) t).core.connection = t.core.connection :=
  (congrArg Course.connection (hc.course_performAll ha closed)).trans
    (Course.connection_foldl_act hk)

theorem connection_of_performAll (hc : Control m t.core.course (t.due env))
    {actions : List Action} (ha : actions.foldlM Marks.act m = some m')
    (ho : .openConnection ∉ actions) {closed : Turn → Turn} {k : ConnectionId}
    (hk : (actions.foldl (perform closed) t).core.connection = some k) :
    t.core.connection = some k := by
  have hcourse := congrArg Course.connection (hc.course_performAll ha closed)
  exact Course.connection_of_foldl_act ho (hcourse.symm.trans hk)

theorem endpoint_performAll (hc : Control m t.core.course (t.due env)) {actions : List Action}
    (ha : actions.foldlM Marks.act m = some m') (closed : Turn → Turn) :
    (actions.foldl (perform closed) t).core.endpoint = t.core.endpoint :=
  (congrArg Course.endpoint (hc.course_performAll ha closed)).trans Course.endpoint_foldl_act

end Turn

namespace Signal

variable {x : Signal} {c : Core} {k : ConnectionId} {trigger : Trigger}

theorem eq_found_of_trigger (h : x.trigger? c = some .endpointFound) :
    ∃ e, x = .endpointAnswered (.ok (.found e)) := by
  cases trigger?_eq_some_iff.mp h with
  | endpointFound e => exact ⟨e, rfl⟩

theorem eq_opened_of_trigger (h : x.trigger? c = some .openSucceeded) :
    ∃ k, x = .opened k (.ok ()) ∧ c.connection = some k := by
  cases trigger?_eq_some_iff.mp h with
  | openSucceeded k hk => exact ⟨k, rfl, of_decide_eq_true hk⟩

/-- A trigger that tells of the end of the connection comes with a signal that ends it. -/
theorem ends_of_trigger (hk : c.connection = some k) (ht : x.trigger? c = some trigger)
    (hd : trigger.disconnects) : Ends k c x := by
  have hcur {k' : ConnectionId} (h : c.isCurrent k') : k' = k :=
    Option.some.inj ((of_decide_eq_true h).symm.trans hk)
  cases trigger?_eq_some_iff.mp ht with
  | openRetryable k' cause hk' | openFatal k' cause hk' =>
    obtain rfl := hcur hk'
    exact ⟨hk', .inl ⟨cause, rfl⟩⟩
  | connectionClosed k' hk' =>
    obtain rfl := hcur hk'
    exact ⟨hk', .inr (.inl rfl)⟩
  | networkError k' cause hk' | replaced k' cause hk' =>
    obtain rfl := hcur hk'
    exact ⟨hk', .inr (.inr ⟨cause, rfl⟩)⟩
  | _ => cases hd

theorem connection_prepare (ht : x.trigger? c = some trigger) (hd : trigger.disconnects = false) :
    (x.prepare c).connection = c.connection := by
  cases trigger?_eq_some_iff.mp ht with
  | openRetryable | openFatal | connectionClosed => cases hd
  | _ => simp [prepare, Core.recordError_eq]

theorem endpoint_prepare (hx : ∀ e, x ≠ .endpointAnswered (.ok (.found e))) :
    (x.prepare c).endpoint = c.endpoint := by
  cases x with
  | endpointAnswered result =>
    rcases result with e | (e | delay)
    · simp [prepare, Core.recordError_eq]
    · exact absurd rfl (hx e)
    · rfl
  | opened k result => cases result <;> simp [prepare, Core.recordError_eq]
  | _ => simp [prepare, Core.recordError_eq]

end Signal

theorem Ends.trigger {k : ConnectionId} {c : Core} {x : Signal} (h : Ends k c x) :
    ∃ trigger, x.trigger? c = some trigger ∧ trigger.disconnects := by
  obtain ⟨hcur, ⟨e, rfl⟩ | rfl | ⟨e, rfl⟩⟩ := h
  · simp only [Signal.trigger?, hcur, if_true]
    exact ⟨_, rfl, by split <;> rfl⟩
  · simp only [Signal.trigger?, hcur, if_true]
    exact ⟨_, rfl, rfl⟩
  · simp only [Signal.trigger?, hcur, if_true]
    exact ⟨_, rfl, by split <;> rfl⟩

theorem Core.handle_found {c : Core} {next : Phase}
    (hn : c.phase.transition .endpointFound = some ⟨next, [.openConnection]⟩) (e : Endpoint) :
    (c.handle (.endpointAnswered (.ok (.found e)))).core = { c with
        phase := next
        endpoint := some e
        connections := c.connections + 1
        connection := some ⟨c.connections + 1⟩ } ∧
      (c.handle (.endpointAnswered (.ok (.found e)))).effects =
        [.publish next.view, .request (.connect ⟨c.connections + 1⟩ e)] := by
  have ht : (Signal.endpointAnswered (.ok (.found e))).trigger? c = some .endpointFound := rfl
  rw [Core.handle_of_transition ht hn]
  exact connect_of_endpoint (c.entering (.endpointAnswered (.ok (.found e))) next) (e := e) rfl

namespace Handles

variable {c : Core} {env : Awaited → Nat} {x : Signal} {k : ConnectionId} {e : Endpoint}

theorem connect (h : Handles c env x) (he : .request (.connect k e) ∈ (c.handle x).effects) :
    x = .endpointAnswered (.ok (.found e)) ∧ c.phase.isConnected = false ∧
      k = ⟨c.connections + 1⟩ ∧ (c.handle x).effects.filterMap Effect.connect? = [(k, e)] ∧
      (c.handle x).core.connections = c.connections + 1 ∧
      (c.handle x).core.connection = some k ∧ (c.handle x).core.endpoint = some e := by
  rcases h.mem_effects he with ⟨-, hs⟩ | ⟨state, hs⟩ | ⟨a, t, hp, hi, -, -⟩
  · cases hs
  · cases hs
  · have hopen : a = .openConnection := by
      cases a <;> first | rfl | cases hi
    subst hopen
    obtain ⟨trigger, next, before, after, ht, hn, -⟩ := hp
    obtain ⟨rfl, rfl, rfl, hphase⟩ := Phase.eq_of_openConnection hn
    obtain ⟨e', rfl⟩ := Signal.eq_found_of_trigger ht
    obtain ⟨hcore, heffects⟩ := Core.handle_found hn e'
    rw [heffects] at he
    obtain ⟨rfl, rfl⟩ : k = ⟨c.connections + 1⟩ ∧ e = e' := by simpa using he
    rw [hcore, heffects]
    exact ⟨rfl, hphase, rfl, rfl, rfl, rfl, rfl⟩

theorem connect_of_new (h : Handles c env x) (hk : (c.handle x).core.connection = some k) :
    c.connection = some k ∨ ∃ e, .request (.connect k e) ∈ (c.handle x).effects := by
  have hprepare (hk : (x.prepare c).connection = some k) : c.connection = some k := by
    rcases x.ties_prepare c with ht | ht
    · exact (congrArg Ties.connection ht).symm.trans hk
    · cases (congrArg Ties.connection ht).symm.trans hk
  cases h with
  | steady hx stays => exact .inl ((congrArg Course.connection stays.course).symm.trans hk)
  | passed hx hnone _ f hf heq =>
    rw [heq, core_update, core_begin] at hk
    rcases hf with rfl | ⟨rfl, -⟩
    · exact .inl hk
    · exact .inl (hprepare hk)
  | @fires trigger next actions m m' hx ht hn hm hc ha hle heq =>
    by_cases ho : .openConnection ∈ actions
    · obtain ⟨before, after, rfl⟩ := List.append_of_mem ho
      obtain ⟨rfl, rfl, rfl, hphase⟩ := Phase.eq_of_openConnection hn
      obtain ⟨e, rfl⟩ := Signal.eq_found_of_trigger ht
      obtain ⟨hcore, heffects⟩ := Core.handle_found hn e
      rw [hcore] at hk
      obtain rfl := Option.some.inj hk
      exact .inr ⟨e, by simp [heffects]⟩
    · rw [heq] at hk
      exact .inl (hprepare (connection_of_performAll hc ha ho hk))

theorem report (h : Handles c env x) (he : .request (.report e) ∈ (c.handle x).effects) :
    ∃ k, x = .opened k (.ok ()) ∧ c.connection = some k ∧ c.endpoint = some e := by
  rcases h.mem_effects he with ⟨-, hs⟩ | ⟨state, hs⟩ | ⟨a, t, hp, hi, hperform, hbefore⟩
  · cases hs
  · cases hs
  · have hmark : a = .markEndpointGood := by
      cases a <;> first | rfl | cases hi
    subst hmark
    obtain ⟨trigger, next, before, after, ht, hn, rfl⟩ := hp
    obtain ⟨rfl, rfl⟩ := Phase.eq_of_markEndpointGood hn
    obtain ⟨k, rfl, hk⟩ := Signal.eq_opened_of_trigger ht
    refine ⟨k, rfl, hk, ?_⟩
    rw [List.foldl_nil, perform, effects_reportEndpoint, List.mem_append] at hperform
    simpa [Signal.prepare] using hperform.resolve_left hbefore

theorem ends_or_keeps (h : Handles c env x) (hk : c.connection = some k)
    (hp : c.phase.isConnected) : Ends k c x ∨ (c.handle x).core.connection = some k := by
  cases h with
  | steady hx stays => exact .inr ((congrArg Course.connection stays.course).trans hk)
  | passed hx hnone hm f hf heq =>
    rw [heq, core_update, core_begin]
    rcases hf with rfl | ⟨rfl, hsome⟩
    · exact .inr hk
    · obtain ⟨trigger, ht⟩ := Option.isSome_iff_exists.mp hsome
      cases hd : trigger.disconnects with
      | true => exact .inl (Signal.ends_of_trigger hk ht hd)
      | false => exact .inr ((Signal.connection_prepare ht hd).trans hk)
  | @fires trigger next actions m m' hx ht hn hm hc ha hle heq =>
    cases hd : trigger.disconnects with
    | true => exact .inl (Signal.ends_of_trigger hk ht hd)
    | false =>
      rw [heq, connection_performAll hc ha (Phase.connects_of_isConnected hp hd hn)]
      exact .inr ((Signal.connection_prepare ht hd).trans hk)

/-- While there is a connection the endpoint stays. -/
theorem endpoint_of_isConnected (h : Handles c env x) (hp : c.phase.isConnected) :
    (c.handle x).core.endpoint = c.endpoint := by
  have hfound {trigger : Trigger} (ht : x.trigger? c = some trigger)
      (hm : c.phase.marks.spend trigger ≠ none) : (x.prepare c).endpoint = c.endpoint := by
    refine Signal.endpoint_prepare ?_
    rintro e rfl
    obtain rfl := Option.some.inj ht
    exact hm (Phase.spend_endpointFound hp)
  cases h with
  | steady hx stays => exact congrArg Course.endpoint stays.course
  | passed hx hnone hm f hf heq =>
    rw [heq, core_update, core_begin]
    rcases hf with rfl | ⟨rfl, hsome⟩
    · rfl
    · obtain ⟨trigger, ht⟩ := Option.isSome_iff_exists.mp hsome
      exact hfound ht (hm trigger ht)
  | @fires trigger next actions m m' hx ht hn hm hc ha hle heq =>
    rw [heq, endpoint_performAll hc ha]
    exact hfound ht (by simp [hm])

end Handles

theorem Reached.connections_le {ℓ : Type} {s s' : System ℓ} {past : List (Move ℓ)} {x : Signal}
    (h : Reached past s) (hs : s.step (.take x) = some s') :
    s.client.core.connections ≤ (s.client.core.handle x).core.connections := by
  obtain ⟨hd, hown⟩ := h.coherent.beside_take hs
  rcases h.coherent.sound.ties_handle hd fun hl => (hown hl).1 with
    ⟨hfades, -⟩ | ⟨_, _, _, _, -, -, hties, -⟩
  · exact hfades.connections
  · exact (congrArg Ties.connections hties).ge

namespace System

variable {ℓ : Type} {s s' : System ℓ} {past : List (Move ℓ)}

/-- Connections have numbers up to the newest one. All but the current one are over, and the
endpoint is that of the current one. -/
structure Opened (past : List (Move ℓ)) (s : System ℓ) : Prop where
  bounded : ∀ k e, .request (.connect k e) ∈ s.issued past → k.number ≤ s.client.core.connections
  ended : ∀ k e, .request (.connect k e) ∈ s.issued past →
    s.client.core.connection = some k ∨ Ended past k
  current : ∀ k, s.client.core.connection = some k →
    ∃ e, .request (.connect k e) ∈ s.issued past ∧ s.client.core.endpoint = some e

namespace Opened

theorem new (id : String) (threshold : Nat) : Opened [] (System.new id threshold : System ℓ) where
  bounded := by simp [issued, System.new]
  ended := by simp [issued, System.new]
  current := by simp [System.new, Client.new]

theorem move (h : Opened past s) {m : Move ℓ} (hs : s.step m = some s') (hm : ∀ x, m ≠ .take x) :
    Opened (past ++ [m]) s' := by
  constructor <;> rw [issued_step hs hm, core_step hs hm]
  · exact h.bounded
  · intro k e he
    exact (h.ended k e he).imp id During.append
  · exact h.current

theorem take (hr : Reached past s) (h : Opened past s) {x : Signal}
    (hs : s.step (.take x) = some s') : Opened (past ++ [.take x]) s' := by
  have hcore := hr.core_eq
  have hissued : s'.issued (past ++ [.take x]) = _ := issued_take hs
  have hconnections := hr.connections_le hs
  have hhandles := hr.handles hs
  obtain ⟨-, rest, -, rfl⟩ := step_take hs
  have hsound := hr.coherent.sound
  have hconnected (k : ConnectionId) (hk : s.client.core.connection = some k) :
      s.client.core.phase.isConnected :=
    (hsound.control.isCurrent_iff.mp (by simpa [Core.isCurrent] using hk)).1
  refine ⟨fun k e he => ?_, fun k e he => ?_, fun k hk => ?_⟩
  · rw [hissued, List.mem_append] at he
    rcases he with he | he
    · exact (h.bounded k e he).trans hconnections
    · obtain ⟨-, -, rfl, -, hn, -⟩ := hhandles.connect he
      exact hn.ge
  · rw [hissued, List.mem_append] at he
    rcases he with he | he
    · rcases h.ended k e he with hk | hk
      · rcases hhandles.ends_or_keeps hk (hconnected k hk) with hends | hk'
        · exact .inr (During.last (hcore ▸ hends))
        · exact .inl hk'
      · exact .inr hk.append
    · exact .inl (hhandles.connect he).2.2.2.2.2.1
  · rw [hissued]
    by_cases hnew : ∃ e, .request (.connect k e) ∈ (s.client.core.handle x).effects
    · obtain ⟨e, he⟩ := hnew
      exact ⟨e, List.mem_append_right _ he, (hhandles.connect he).2.2.2.2.2.2⟩
    · have hold := (hhandles.connect_of_new hk).resolve_right hnew
      obtain ⟨e, he, hendpoint⟩ := h.current k hold
      refine ⟨e, List.mem_append_left _ he, ?_⟩
      exact (hhandles.endpoint_of_isConnected (hconnected k hold)).trans hendpoint

end Opened

end System

theorem Reached.opened {ℓ : Type} {past : List (Move ℓ)} {s : System ℓ} (h : Reached past s) :
    s.Opened past := by
  exact h.turn_induction (fun id threshold => .new id threshold) (fun _ ih hs hm => ih.move hs hm)
    fun hr ih hs => ih.take hr hs

end PubSub
