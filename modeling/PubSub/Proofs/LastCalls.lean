import PubSub.Proofs.Results
import PubSub.Proofs.Rounds

/-! # The last call for a row

While a row is attaching, the last subscribe that was asked for its topic on the
current connection is the one that it waits for, and it was asked for with the
parameters of the row: by the work that made the row, or by a renewal of it.
-/

namespace PubSub

open Turn

namespace Effect

def isAsk : Effect → Bool
  | request (.subscribe ..) => true
  | _ => false

def asks? (k : ConnectionId) (topic : Topic) : Effect → Option SubscribeParams
  | request (.subscribe j params) => if j = k ∧ params.topic = topic then some params else none
  | _ => none

theorem asks?_eq_none {e : Effect} (he : e.isAsk = false) (k : ConnectionId) (topic : Topic) :
    e.asks? k topic = none := by
  cases e with
  | request r =>
    cases r with
    | subscribe => cases he
    | _ => rfl
  | _ => rfl

theorem isAsk_of_not_isOfLoad {e : Effect} (he : e.isOfLoad = false) : e.isAsk = false := by
  cases e with
  | request r =>
    cases r with
    | subscribe => cases he
    | _ => rfl
  | _ => rfl

end Effect

theorem Subscriptions.Sorted.remakeParams_filter {rows : Subscriptions} (h : rows.Sorted)
    (topic : Topic) : rows.remakeParams.filter (·.topic = topic) =
      ((rows.find? topic).toList.filter (·.isBroken)).map (·.params) := by
  induction rows with
  | nil => rfl
  | cons row rows ih =>
    obtain ⟨hbefore, hrows⟩ := List.pairwise_cons.mp h
    have hcons : remakeParams (row :: rows) =
        (if row.isBroken then [row.params] else []) ++ remakeParams rows := by
      cases hb : row.isBroken <;> simp [remakeParams, hb]
    rw [hcons, List.filter_append, ih hrows, find?_cons]
    by_cases ht : row.topic = topic
    · have hnone : find? rows topic = none := by
        rw [find?_eq_none]
        intro r hr
        exact ht ▸ (Topic.ne_of_before (hbefore r hr)).symm
      have htopic : row.params.topic = topic := ht
      cases hb : row.isBroken <;> simp [ht, hnone, htopic, hb]
    · have htopic : row.params.topic ≠ topic := ht
      cases row.isBroken <;> simp [ht, htopic]

namespace Turn

variable {es : List Effect} {t t' : Turn} {row : Subscription} {k : ConnectionId}

/-- After earlier effects and those of the turn so far, the last subscribe for a row that is
attaching was asked for with the parameters of the row. -/
def Asked (es : List Effect) (t : Turn) : Prop :=
  ∀ k topic row, t.core.connection = some k → t.core.subscriptions.find? topic = some row →
    row.state = .attaching →
      ((es ++ t.effects).filterMap (Effect.asks? k topic)).getLast? = some row.params

namespace Asked

theorem keep (h : t.Asked es) (hi : Issues (·.isAsk = false) t t')
    (hold : ∀ k topic row, t'.core.connection = some k →
      t'.core.subscriptions.find? topic = some row → row.state = .attaching →
        t.core.connection = some k ∧ ∃ old, t.core.subscriptions.find? topic = some old ∧
          old.state = .attaching ∧ old.params = row.params) : t'.Asked es := by
  intro k topic row hk hf hs
  obtain ⟨hk, old, hold, hstate, hparams⟩ := hold k topic row hk hf hs
  obtain ⟨more, he, hmore⟩ := hi
  have hnone : more.filterMap (Effect.asks? k topic) = [] :=
    List.filterMap_eq_nil_iff.mpr fun e hm => Effect.asks?_eq_none (hmore e hm) k topic
  rw [he, ← List.append_assoc, List.filterMap_append, hnone, List.append_nil, ← hparams]
  exact h k topic old hk hold hstate

theorem congr (h : t.Asked es) (hi : Issues (·.isAsk = false) t t')
    (hk : t'.core.connection = t.core.connection)
    (hrows : t'.core.subscriptions = t.core.subscriptions) : t'.Asked es :=
  h.keep hi fun _ _ row hk' hf hs => ⟨hk ▸ hk', row, hrows ▸ hf, hs, rfl⟩

/-- The load is left alone, and where a row is attaching the connection stays. -/
theorem leaves (h : t.Asked es) (hl : t.Leaves t')
    (hk : ∀ k topic row, t'.core.connection = some k →
      t'.core.subscriptions.find? topic = some row → row.state = .attaching →
        t.core.connection = some k) : t'.Asked es := by
  have hrows : t'.core.subscriptions = t.core.subscriptions :=
    congrArg Load.subscriptions hl.load
  have hi : Issues (·.isAsk = false) t t' := hl.issues.imp fun _ => Effect.isAsk_of_not_isOfLoad
  refine h.keep hi fun k topic row hk' hf hs => ?_
  exact ⟨hk k topic row hk' hf hs, row, hrows ▸ hf, hs, rfl⟩

theorem of_ne_attaching (h : ∀ row ∈ t.core.subscriptions, row.state ≠ .attaching) : t.Asked es :=
  fun _ _ row _ hf hs => absurd hs (h row (Subscriptions.find?_eq_some hf).1)

theorem of_breakConnection (hl : t.breakConnection.Leaves t') : t'.Asked es := by
  refine .of_ne_attaching fun row hrow => ?_
  have hload : t'.core.subscriptions = t.breakConnection.core.subscriptions :=
    congrArg Load.subscriptions hl.load
  rw [hload, core_breakConnection] at hrow
  obtain ⟨old, -, rfl⟩ := List.mem_map.mp hrow
  simp [Subscription.interrupt]

theorem of_cleanup (hl : t.cleanup.Leaves t') : t'.Asked es := by
  refine .of_ne_attaching fun row hrow => ?_
  have hload : t'.core.subscriptions = t.cleanup.core.subscriptions :=
    congrArg Load.subscriptions hl.load
  rw [hload, core_cleanup] at hrow
  cases hrow

theorem emit (h : t.Asked es) {e : Effect} (he : e.isAsk = false) : (t.emit e).Asked es :=
  h.congr (.of_effects (effects_emit ..) (by simpa using he)) rfl rfl

theorem settleAll (h : t.Asked es) (ps : List PromiseId) (result : Outcome) :
    (t.settleAll ps result).Asked es := by
  refine h.congr (.of_effects (effects_settleAll ..) ?_) (by simp) (by simp)
  simp [Effect.isAsk]

theorem putRow (h : t.Asked es) (hrow : row.state = .attaching →
    ∃ old, t.core.subscriptions.find? row.topic = some old ∧ old.state = .attaching ∧
      old.params = row.params) : (t.putRow row).Asked es := by
  refine h.keep (.of_effects (l := []) (by simp) (by simp)) fun k topic row' hk hf hs => ⟨hk, ?_⟩
  rw [core_putRow, Subscriptions.find?_put] at hf
  split at hf
  · next ht =>
    obtain rfl := Option.some.inj hf
    exact ht ▸ hrow hs
  · exact ⟨row', hf, hs, rfl⟩

theorem eraseRow (h : t.Asked es) (topic : Topic) : (t.eraseRow topic).Asked es := by
  refine h.keep (.of_effects (l := []) (by simp) (by simp)) fun k topic' row hk hf hs => ⟨hk, ?_⟩
  rw [core_eraseRow, Subscriptions.find?_erase] at hf
  split at hf
  · cases hf
  · exact ⟨row, hf, hs, rfl⟩

theorem ask (h : t.Asked es) (hk : t.core.connection = some k) (r : SubscribeRequest) :
    ((t.putRow (.new r)).request (.subscribe k r.params)).Asked es := by
  intro k' topic row hk' hf hs
  obtain rfl : k = k' := Option.some.inj (hk.symm.trans hk')
  have hf : (t.core.subscriptions.put (.new r)).find? topic = some row := hf
  rw [effects_request, effects_putRow, ← List.append_assoc, List.filterMap_append]
  have hnew : (Subscription.new r).topic = r.params.topic := rfl
  rw [Subscriptions.find?_put, hnew] at hf
  by_cases ht : r.params.topic = topic
  · rw [if_pos ht] at hf
    obtain rfl := Option.some.inj hf
    simp [Effect.asks?, ht, Subscription.new]
  · rw [if_neg ht] at hf
    simpa [Effect.asks?, ht] using h k topic row hk hf hs

theorem execute (h : t.Asked es) (w : Work) : (t.execute w).Asked es := by
  unfold Turn.execute
  split
  · exact h
  · next k hk =>
    cases w with
    | send r =>
      refine h.congr (.of_effects (effects_executeSend ..) ?_) rfl rfl
      simp [Effect.isAsk]
    | subscribe r =>
      simp only [executeSubscribe]
      split
      · exact h.ask hk r
      · next row hf =>
        split
        · exact h.emit rfl
        · refine h.putRow fun hs => ⟨row, ?_, hs, rfl⟩
          rw [← hf]
          exact congrArg _ (Subscriptions.find?_eq_some hf).2
    | unsubscribe r =>
      simp only [executeUnsubscribe]
      split
      · exact h.emit rfl
      · next row hf =>
        split
        · exact (h.putRow fun hs => by cases hs).emit rfl
        · refine h.putRow fun hs => ⟨row, ?_, hs, rfl⟩
          rw [← hf]
          exact congrArg _ (Subscriptions.find?_eq_some hf).2

theorem onWork (h : t.Asked es) (w : Work) : (t.onWork w).Asked es := by
  unfold Turn.onWork
  split
  · refine h.congr (.of_effects (effects_reject ..) ?_) (by simp) (by simp)
    cases w <;> simp [Work.refusal, Effect.isAsk]
  · exact h
  · exact h.execute w

theorem replay (h : t.Asked es) (ws : List Work) : (t.replay ws).Asked es := by
  induction ws generalizing t with
  | nil => exact h
  | cons w ws ih => exact ih (h.onWork w)

theorem remakeSettled (h : t.Asked es) : t.remakeSettled.Asked es := by
  refine h.congr (.of_effects (effects_remakeSettled t) ?_) (by simp) (by simp)
  split <;> simp [Effect.isAsk]

theorem remake (h : t.Asked es) (hsorted : t.core.subscriptions.Sorted) : t.remake.Asked es := by
  intro k topic row' hk hf hs
  have hsame : t.remake.core.connection = t.core.connection :=
    congrArg Course.connection (stays_remake t).course
  rw [hsame] at hk
  obtain ⟨hcore, heffects⟩ := remake_of_connection t hk
  have hfind : Subscriptions.find? t.core.subscriptions.remake topic =
      (t.core.subscriptions.find? topic).map Subscription.remake :=
    Subscriptions.find?_map Subscription.topic_remake
  rw [hcore] at hf
  obtain ⟨row, hrow, rfl⟩ := Option.map_eq_some_iff.mp (hfind.symm.trans hf)
  have hasked : (t.remake.effects.filterMap (Effect.asks? k topic)) =
      t.effects.filterMap (Effect.asks? k topic) ++
        t.core.subscriptions.remakeParams.filter (·.topic = topic) := by
    rw [heffects, List.filterMap_append]
    split
    · next hnone => simp [hnone, Effect.asks?]
    · rw [List.filterMap_map, ← List.filterMap_eq_filter]
      congr 2
      funext params
      simp [Effect.asks?, Option.guard]
  rw [List.filterMap_append, hasked, hsorted.remakeParams_filter, hrow, Option.toList_some]
  cases hbroken : row.isBroken with
  | true => simp [hbroken, Subscription.remake]
  | false =>
    have hsame : row.remake = row := by simp [Subscription.remake, hbroken]
    rw [hsame] at hs ⊢
    simpa [hbroken] using h k topic row hk hrow hs

end Asked

end Turn

namespace Phase

variable {p next : Phase} {trigger : Trigger} {before after : List Action}

/-- The rows are gone or broken while a connection is asked for. -/
theorem rowShape_of_openConnection
    (h : p.transition .endpointFound = some ⟨next, [.openConnection]⟩) :
    p.rowShape = .empty ∨ p.rowShape = .broken := by
  have hall : ∀ (p : Phase), ∀ n ∈ p.transition .endpointFound,
      n.actions = [.openConnection] → p.rowShape = .empty ∨ p.rowShape = .broken := by decide
  exact hall _ _ h rfl

theorem connects_before {a : Action} (ha : a = .remakeSubscriptions ∨ a = .replayPendingWork)
    (h : p.transition trigger = some ⟨next, before ++ a :: after⟩) :
    trigger.disconnects = false ∧ ∀ b ∈ before, b.connects = false := by
  have hall : ∀ (p : Phase) (trigger : Trigger), ∀ n ∈ p.transition trigger,
      (.remakeSubscriptions ∈ n.actions ∨ .replayPendingWork ∈ n.actions) →
        trigger.disconnects = false ∧ ∀ b ∈ n.actions, b.connects = false := by decide
  have hmem : .remakeSubscriptions ∈ before ++ a :: after ∨
      .replayPendingWork ∈ before ++ a :: after := by
    rcases ha with rfl | rfl <;> simp
  exact (hall _ _ _ h hmem).imp id fun hb b hm => hb b (List.mem_append_left _ hm)

end Phase

theorem RowShape.Admits.ne_attaching {shape : RowShape} {row : Subscription}
    (h : shape.Admits row) (hs : shape = .empty ∨ shape = .broken) : row.state ≠ .attaching := by
  rcases hs with rfl | rfl
  · exact h.elim
  · rw [Subscription.Broken.state h]
    decide

namespace Handles

variable {c : Core} {env : Awaited → Nat} {x : Signal} {t : Turn} {a : Action}

theorem connection_performs (h : Handles c env x) (hp : c.Performs x a t)
    (ha : a = .remakeSubscriptions ∨ a = .replayPendingWork) :
    t.core.connection = c.connection := by
  obtain ⟨trigger, next, before, after, ht, hn, rfl⟩ := hp
  obtain ⟨hd, hbefore⟩ := Phase.connects_before ha hn
  obtain ⟨m, m', -, hc, hact⟩ := h.control_of_transition ht hn
  rw [List.foldlM_append] at hact
  obtain ⟨m₁, hact, -⟩ := Option.bind_eq_some_iff.mp hact
  exact (connection_performAll hc hact hbefore fireClosed).trans (Signal.connection_prepare ht hd)

end Handles

section Answers

variable {c : Core} {k : ConnectionId} {topic : Topic} {answer : Outcome} {es : List Effect}

theorem Core.OnSubscribed.asked (h : c.OnSubscribed k topic answer) (ha : (begin c).Asked es) :
    (c.handle (.subscribed k topic answer)).Asked es := by
  cases h with
  | ignored _ heq => exact heq ▸ ha
  | @stopping row _ hf _ heq =>
    rw [heq, onSubscribedStopping]
    split
    · obtain ⟨-, rfl⟩ := Subscriptions.find?_eq_some hf
      exact Asked.remakeSettled (Asked.putRow ha fun hs => ⟨row, hf, hs, rfl⟩)
    · exact ha
  | remade _ _ _ _ _ heq =>
    rw [heq]
    cases answer with
    | ok u => exact ((ha.putRow (by intro hs; cases hs)).settleAll _ _).remakeSettled
    | error e => exact Asked.remakeSettled (Asked.emit ((ha.eraseRow _).settleAll _ _) rfl)
  | attached _ _ _ _ _ heq =>
    rw [heq]
    cases answer with
    | ok u => exact ((ha.putRow (by intro hs; cases hs)).settleAll _ _).replay _
    | error e => exact ((ha.eraseRow _).settleAll _ _).replay _

theorem Core.OnUnsubscribed.asked (h : c.OnUnsubscribed k topic answer) (ha : (begin c).Asked es) :
    (c.handle (.unsubscribed k topic answer)).Asked es := by
  cases h with
  | ignored _ heq => exact heq ▸ ha
  | detached _ _ _ _ _ heq =>
    rw [heq]
    cases answer with
    | ok u => exact Asked.replay (Asked.emit ((ha.eraseRow _).settleAll _ _) rfl) _
    | error e => exact ((ha.putRow (by intro hs; cases hs)).settleAll _ _).replay _

end Answers

namespace Sound

variable {lost : ConnectionId → Topic → Prop} {c : Core} {d env : Awaited → Nat} {x : Signal}
  {es : List Effect}

theorem connection_of_attaching (h : Sound lost c d) (hh : Handles c env x) (k : ConnectionId)
    (topic : Topic) (row : Subscription) (hk : (c.handle x).core.connection = some k)
    (hf : (c.handle x).core.subscriptions.find? topic = some row) (hs : row.state = .attaching) :
    c.connection = some k := by
  refine (hh.connect_of_new hk).resolve_right ?_
  rintro ⟨e, he⟩
  rcases hh.mem_effects he with ⟨-, hsteady⟩ | ⟨state, hstate⟩ | ⟨a, t, hp, hi, -, -⟩
  · cases hsteady
  · cases hstate
  · have hopen : a = .openConnection := by
      cases a <;> first | rfl | cases hi
    subst hopen
    obtain ⟨trigger, next, before, after, ht, hn, -⟩ := hp
    obtain ⟨rfl, rfl, rfl, -⟩ := Phase.eq_of_openConnection hn
    obtain ⟨e', rfl⟩ := Signal.eq_found_of_trigger ht
    rw [(Core.handle_found hn e').1] at hf
    exact (h.tracking.shape row (Subscriptions.find?_eq_some hf).1).ne_attaching
      (Phase.rowShape_of_openConnection hn) hs

/-- What was asked for last for the rows that are attaching stays so in every turn. -/
theorem asked_handle (h : Sound lost c d) (hd : ∀ a, d a = env a + x.awaited.count a)
    (hown : .lookup ∈ x.awaited → env .resume = 0) (ha : (begin c).Asked es) :
    (c.handle x).Asked es := by
  have hh := h.handles hd hown
  have hattaching := h.connection_of_attaching hh
  cases hh.loads with
  | leaves _ hl => exact ha.leaves hl hattaching
  | steady hx hp =>
    cases x with
    | work w => exact ha.onWork w
    | sent k id result =>
      have hturn : c.handle (.sent k id result) = (begin c).onSent k id result := rfl
      rw [hturn]
      unfold Turn.onSent
      split
      · exact ha
      · split_ifs
        · exact ha
        · exact ha
        · exact Asked.emit (ha.congr (.of_effects (l := []) (by simp) (by simp)) rfl rfl) rfl
    | subscribed k topic answer => exact (h.subscribed_cases hd).asked ha
    | unsubscribed k topic answer => exact (h.unsubscribed_cases hd).asked ha
    | _ => cases hp
  | @once a t hplain performs before after =>
    have hrows : t.core.subscriptions = c.subscriptions := congrArg Load.subscriptions before.load
    -- Where rows are renewed or work is done, the connection is that of before.
    have hsame (hact : a = .remakeSubscriptions ∨ a = .replayPendingWork)
        (hasked : t.Asked es → (t.perform fireClosed a).Asked es)
        (hk : (t.perform fireClosed a).core.connection = t.core.connection) :
        (c.handle x).Asked es := by
      have hbefore := hh.connection_performs performs hact
      refine (hasked (ha.leaves before fun k _ _ hk _ _ => hbefore ▸ hk)).leaves after ?_
      intro k topic row hk' hf hs
      rw [hk, hbefore]
      exact hattaching k topic row hk' hf hs
    cases a with
    | remakeSubscriptions =>
      refine hsame (.inl rfl) (·.remake (hrows ▸ h.tracking.sorted)) ?_
      exact congrArg Course.connection (stays_remake t).course
    | replayPendingWork =>
      have hcleared : Issues (·.isAsk = false) t (t.update fun c => { c with pendingWork := [] }) :=
        .of_effects (l := []) (by simp) (by simp)
      refine hsame (.inr rfl) (fun ht => (ht.congr hcleared rfl rfl).replay _) ?_
      exact congrArg Course.connection (stays_replayPending t).course
    | breakConnection => exact .of_breakConnection after
    | cleanup => exact .of_cleanup after
    | _ => cases hplain
  | @twice t u performs performs' before middle after => exact .of_cleanup after

end Sound

def Exchange.asked? : Exchange → Option SubscribeParams
  | asked params => some params
  | _ => none

theorem Move.asks?_performed {ℓ : Type} (k : ConnectionId) (topic : Topic) (m : Move ℓ) :
    m.performed.filterMap (Effect.asks? k topic) =
      (m.exchange? k topic).toList.filterMap Exchange.asked? := by
  cases m with
  | perform e =>
    cases e with
    | request r =>
      cases r with
      | subscribe j params =>
        by_cases hj : j = k ∧ params.topic = topic <;>
          simp [performed, Effect.asks?, exchange?, hj, Exchange.asked?]
      | _ => rfl
    | _ => rfl
  | answer r result =>
    cases r with
    | subscribed j t =>
      by_cases hj : j = k ∧ t = topic <;> simp [performed, exchange?, hj, Exchange.asked?]
    | _ => rfl
  | take x =>
    cases x with
    | subscribed j t result =>
      by_cases hj : j = k ∧ t = topic <;> simp [performed, exchange?, hj, Exchange.asked?]
    | _ => rfl
  | _ => rfl

theorem asks?_performed {ℓ : Type} (k : ConnectionId) (topic : Topic) (past : List (Move ℓ)) :
    (past.flatMap Move.performed).filterMap (Effect.asks? k topic) =
      (exchanges k topic past).filterMap Exchange.asked? := by
  induction past with
  | nil => rfl
  | cons m past ih =>
    have hcons : exchanges k topic (m :: past) =
        (m.exchange? k topic).toList ++ exchanges k topic past := by
      cases hm : m.exchange? k topic <;> simp [exchanges, hm]
    rw [List.flatMap_cons, List.filterMap_append, m.asks?_performed k topic, ih, hcons,
      List.filterMap_append]

namespace Reached

variable {ℓ : Type} {s s' : System ℓ} {past : List (Move ℓ)}

theorem asked (h : Reached past s) : (begin s.client.core).Asked (s.issued past) := by
  refine h.turn_induction (P := fun past s => (begin s.client.core).Asked (s.issued past))
    (fun _ _ => .of_ne_attaching (List.forall_mem_nil _)) ?_ ?_
  · intro past s m s' hr ih hs hm
    rw [System.issued_step hs hm, System.core_step hs hm]
    exact ih
  · intro past s x s' hr ih hs
    obtain ⟨hd, hown⟩ := hr.coherent.beside_take hs
    have hasked := hr.coherent.sound.asked_handle hd (fun hl => (hown hl).1) ih
    rw [System.issued_take hs, System.core_take hs]
    intro k topic row hk hf hstate
    rw [effects_begin, List.append_nil]
    exact hasked k topic row hk hf hstate

/-- An answer that is handled on the current connection tells of the subscribe that was called
last, and this asked for what the row has. -/
theorem answers_last (h : Reached past s) {k : ConnectionId} {topic : Topic} {result : Outcome}
    (hs : s.step (.take (.subscribed k topic result)) = some s')
    (hk : s.client.core.connection = some k) :
    ∃ rs row, s.client.core.subscriptions.find? topic = some row ∧
      exchanges k topic past = Exchange.rounds rs ++ [.asked row.params, .answered result] := by
  obtain ⟨hd, -⟩ := h.coherent.beside_take hs
  obtain ⟨-, -, row, hf, hstate⟩ := h.coherent.sound.tracking.attaching_of_subscribed hk hd
  have hlast := h.asked k topic row hk hf hstate
  obtain ⟨hagenda, rest, hwaiting, -⟩ := System.step_take hs
  have hanswers : s.answers k topic = result :: rest.filterMap (Signal.answer? k topic) := by
    simp [System.answers, hwaiting, Signal.answer?]
  rw [effects_begin, List.append_nil, System.issued, hagenda, List.append_nil,
    asks?_performed] at hlast
  cases h.inRounds hk topic with
  | finished rs he _ hnone => cases hnone.symm.trans hanswers
  | asked rs params he _ hnone => cases hnone.symm.trans hanswers
  | answered rs params result' he _ hone =>
    obtain ⟨rfl, -⟩ := List.cons.inj (hone.symm.trans hanswers)
    have hasked : [Exchange.asked params, .answered result'].filterMap Exchange.asked? = [params] :=
      rfl
    rw [he, List.filterMap_append, hasked, List.getLast?_concat] at hlast
    obtain rfl := Option.some.inj hlast
    exact ⟨rs, row, hf, he⟩

end Reached

end PubSub
