import PubSub.Proofs.Answers
import PubSub.Proofs.Connections
import PubSub.Proofs.Load

/-! # Renewals

A client that has reconnected subscribes anew to every row that it tracks, in
the order of the topics, and does nothing else until each of them has its
answer. A row whose renewal succeeds is established again; a row whose renewal
fails is gone, and its promises with it.
-/

namespace PubSub

open Turn

def Subscription.renewed (row : Subscription) : Subscription :=
  { row with state := .established, establishedOnce := true, remaking := false, awaiting := [] }

theorem Subscription.Broken.renewed_remake {row : Subscription} (h : row.Broken) :
    row.remake.renewed = row.renewed := by
  rw [h.remake_eq]
  rfl

structure Renews (c : Core) (row : Subscription) (result : Outcome) (t : Turn) : Prop where
  tracked : c.subscriptions.find? row.topic = some row
  remaking : row.remaking
  final : Outcome.isRetryable result = false
  silent : ∀ e ∈ t.effects, e.transmits = false
  succeeded : result = .ok () → t.core.subscriptions = c.subscriptions.put row.renewed ∧
    ∀ p ∈ row.awaiting, .settle p result ∈ t.effects
  failed : ∀ e, result = .error e → t.core.subscriptions = c.subscriptions.erase row.topic ∧
    ∀ p ∈ row.promises, .settle p result ∈ t.effects

/-- The rows are left alone, and nothing is asked of the server for them. -/
structure Rests (c : Core) (t : Turn) : Prop where
  subscriptions : t.core.subscriptions = c.subscriptions
  silent : ∀ e ∈ t.effects, e.transmits = false

namespace Rests

variable {c : Core} {t : Turn}

theorem refl (c : Core) : Rests c (begin c) := ⟨rfl, by simp⟩

theorem of_leaves (h : (begin c).Leaves t) : Rests c t := by
  refine ⟨congrArg Load.subscriptions h.load, fun e he => ?_⟩
  exact Effect.transmits_of_not_isOfLoad ((h.issues.mem he).resolve_left (by simp))

end Rests

namespace Turn

theorem transmits_remakeSettled {t : Turn} (h : ∀ e ∈ t.effects, e.transmits = false) :
    ∀ e ∈ t.remakeSettled.effects, e.transmits = false := by
  intro e he
  rw [effects_remakeSettled, List.mem_append] at he
  rcases he with he | he
  · exact h e he
  · split at he
    · obtain rfl := List.mem_singleton.mp he
      rfl
    · cases he

theorem transmits_settleAll {t : Turn} (h : ∀ e ∈ t.effects, e.transmits = false)
    (ps : List PromiseId) (result : Outcome) :
    ∀ e ∈ (t.settleAll ps result).effects, e.transmits = false := by
  intro e he
  rw [effects_settleAll, List.mem_append, List.mem_map] at he
  rcases he with he | ⟨p, -, rfl⟩
  · exact h e he
  · rfl

theorem renews_onRemade {c : Core} {row : Subscription} {result : Outcome}
    (hrow : c.subscriptions.find? row.topic = some row) (hr : row.remaking)
    (hf : Outcome.isRetryable result = false) :
    Renews c row result ((begin c).onRemade row result) := by
  cases result with
  | ok =>
    refine ⟨hrow, hr, hf, ?_, fun _ => ⟨?_, fun p hp => ?_⟩, by simp⟩
    · exact transmits_remakeSettled (transmits_settleAll (by simp) _ _)
    · simp only [onRemade, core_remakeSettled, core_settleAll, core_putRow, core_begin]
      rfl
    · simp only [onRemade, effects_remakeSettled, effects_settleAll]
      exact List.mem_append_left _ (List.mem_append_right _ (List.mem_map_of_mem hp))
  | error e =>
    refine ⟨hrow, hr, hf, ?_, by simp, fun e' he => ⟨?_, fun p hp => ?_⟩⟩
    · refine transmits_remakeSettled fun e' he => ?_
      rw [effects_notify, List.mem_append, List.mem_singleton] at he
      rcases he with he | rfl
      · exact transmits_settleAll (by simp) _ _ e' he
      · rfl
    · simp only [onRemade, core_remakeSettled, core_notify, core_settleAll, core_eraseRow,
        core_begin]
    · simp only [onRemade, effects_remakeSettled, effects_notify, effects_settleAll]
      exact List.mem_append_left _ (List.mem_append_left _
        (List.mem_append_right _ (List.mem_map_of_mem hp)))

end Turn

namespace Phase

/-- The renewals end with a message of the client to itself, or with the connection. -/
theorem actions_of_remaking {trigger : Trigger} {actions : List Action}
    (h : remaking.transition trigger = some ⟨remaking, actions⟩) : actions = [] := by
  have hall : ∀ trigger : Trigger, ∀ n ∈ remaking.transition trigger, n.next = remaking →
      n.actions = [] := by decide
  exact hall _ _ h rfl

theorem eq_of_notifyRestarted {p next : Phase} {trigger : Trigger} {before after : List Action}
    (h : p.transition trigger = some ⟨next, before ++ .notifyRestarted :: after⟩) :
    trigger = .subscriptionsRemade ∧ p = remaking ∧ next = started ∧
      before = [.succeedPendingStarts] ∧ after = [.replayPendingWork] := by
  have hall : ∀ (p : Phase) (trigger : Trigger), ∀ n ∈ p.transition trigger,
      .notifyRestarted ∈ n.actions →
        trigger = .subscriptionsRemade ∧ p = remaking ∧ n.next = started ∧
        n.actions = [.succeedPendingStarts, .notifyRestarted, .replayPendingWork] := by decide
  obtain ⟨ht, hp, hn, ha⟩ := hall _ _ _ h (by simp)
  rcases before with _ | ⟨a, _ | ⟨b, _ | ⟨c, before⟩⟩⟩ <;> simp at ha
  exact ⟨ht, hp, hn, by simp [ha], ha.2⟩

theorem openSucceeded_of_remaking {p : Phase} {trigger : Trigger} {actions : List Action}
    (h : p.transition trigger = some ⟨remaking, actions⟩) (hp : p ≠ remaking) :
    trigger = .openSucceeded ∧ p = reconnectOpen ∧
      actions = [.markEndpointGood, .remakeSubscriptions] := by
  have hall : ∀ (p : Phase) (trigger : Trigger), ∀ n ∈ p.transition trigger,
      p ≠ remaking → n.next = remaking → trigger = .openSucceeded ∧ p = reconnectOpen ∧
        n.actions = [.markEndpointGood, .remakeSubscriptions] := by decide
  exact hall _ _ _ h hp rfl

end Phase

namespace Sound

variable {lost : ConnectionId → Topic → Prop} {c : Core} {d env : Awaited → Nat} {x : Signal}
  {k : ConnectionId}

/-- While rows are renewed, a steady signal renews one of them or leaves all of them alone. -/
theorem renews_of_steady (h : Sound lost c d) (hd : ∀ a, d a = env a + x.awaited.count a)
    (hp : c.phase = .remaking) (hx : x.isSteady) :
    Rests c (c.handle x) ∨ ∃ k row result, x = .subscribed k row.topic result ∧
      c.connection = some k ∧ Renews c row result (c.handle x) := by
  by_cases hplain : x.isPlain
  · exact .inl (.of_leaves (leaves_handle (begin c) hx hplain))
  cases x with
  | work w =>
    refine .inl ?_
    have hw : c.handle (.work w) = (begin c).keep w := by
      simp only [Core.handle, Turn.handle, onWork, core_begin, hp]
      rfl
    rw [hw]
    exact ⟨rfl, by simp⟩
  | sent k id result =>
    refine .inl ?_
    simp only [Core.handle, Turn.handle, onSent]
    split
    · exact .refl c
    · split_ifs
      · exact .refl c
      · exact .refl c
      · exact ⟨rfl, by simp [Effect.transmits]⟩
  | subscribed k topic result =>
    cases h.subscribed_cases hd with
    | ignored _ heq =>
      rw [heq]
      exact .inl (.refl c)
    | stopping _ _ hstopping =>
      rw [hp] at hstopping
      cases hstopping
    | @remade row hk hf hrow _ hr heq =>
      obtain ⟨-, rfl⟩ := Subscriptions.find?_eq_some hf
      rw [heq]
      exact .inr ⟨k, row, result, rfl, hk, renews_onRemade hf hrow.remaking (by simpa using hr)⟩
    | attached _ _ _ hstarted =>
      rw [hp] at hstarted
      cases hstarted
  | unsubscribed k topic result =>
    refine .inl ?_
    -- Nothing is being unsubscribed while rows are renewed.
    cases h.unsubscribed_cases hd with
    | ignored _ heq =>
      rw [heq]
      exact .refl c
    | detached _ _ _ hstarted =>
      rw [hp] at hstarted
      cases hstarted
  | _ => exact absurd rfl hplain

theorem renews_handle (h : Sound lost c d) (hd : ∀ a, d a = env a + x.awaited.count a)
    (hown : .lookup ∈ x.awaited → env .resume = 0) (hp : c.phase = .remaking)
    (hp' : (c.handle x).core.phase = .remaking) :
    (Rests c (c.handle x) ∨ ∃ k row result, x = .subscribed k row.topic result ∧
      c.connection = some k ∧ Renews c row result (c.handle x)) ∧
      (c.handle x).core.connection = c.connection := by
  have hload : (x.prepare c).subscriptions = c.subscriptions :=
    congrArg Load.subscriptions (x.load_prepare c)
  have hconnection {trigger : Trigger} (ht : x.trigger? c = some trigger)
      (hm : c.phase.marks.spend trigger ≠ none)
      (hn : trigger = .start ∨ c.phase.transition trigger = none) :
      (x.prepare c).connection = c.connection := by
    refine Signal.connection_prepare ht ?_
    rw [hp] at hm hn
    revert hm hn
    cases trigger <;> decide
  cases h.handles hd hown with
  | steady hx stays =>
    exact ⟨h.renews_of_steady hd hp hx, congrArg Course.connection stays.course⟩
  | passed hx hnone hm f hf heq =>
    rw [heq, core_update, core_begin]
    rcases hf with rfl | ⟨rfl, hsome⟩
    · exact ⟨.inl (.refl c), rfl⟩
    · obtain ⟨trigger, ht⟩ := Option.isSome_iff_exists.mp hsome
      rw [ht, Option.bind_some] at hnone
      exact ⟨.inl ⟨hload, by simp⟩, hconnection ht (hm _ ht) (.inr hnone)⟩
  | @fires trigger next actions m m' hx ht hn hm hc ha hle heq =>
    obtain rfl : next = .remaking := by
      rw [heq, (hc.performAll ha fireClosed).2] at hp'
      exact hp'
    rw [hp] at hn
    obtain rfl := Phase.actions_of_remaking hn
    have hstart : trigger = .start := by
      have hall : ∀ trigger : Trigger, ∀ n ∈ Phase.remaking.transition trigger,
          n.next = .remaking → trigger = .start := by decide
      exact hall _ _ hn rfl
    rw [heq, List.foldl_nil, Core.core_entering]
    exact ⟨.inl ⟨hload, by simp [Effect.transmits]⟩,
      hconnection ht (by simp [hm]) (.inl hstart)⟩

theorem remake_handle (h : Sound lost c d) (hd : ∀ a, d a = env a + x.awaited.count a)
    (hown : .lookup ∈ x.awaited → env .resume = 0) (hp : c.phase ≠ .remaking)
    (hp' : (c.handle x).core.phase = .remaking) :
    ∃ k, x = .opened k (.ok ()) ∧ c.connection = some k ∧
      (c.handle x).core.connection = some k ∧ (∀ row ∈ c.subscriptions, row.Broken) ∧
      d .remade = 0 ∧ (c.handle x).core.subscriptions = c.subscriptions.remake ∧
      (c.handle x).effects.filter Effect.transmits =
        c.subscriptions.map fun row => .request (.subscribe k row.params) := by
  cases h.handles hd hown with
  | steady hx stays => exact absurd ((congrArg Course.phase stays.course).symm.trans hp') hp
  | passed hx hnone hm f hf heq =>
    rw [heq, core_update, core_begin] at hp'
    rcases hf with rfl | ⟨rfl, -⟩
    · exact absurd hp' hp
    · exact absurd ((x.phase_prepare c).symm.trans hp') hp
  | @fires trigger next actions m m' hx ht hn hm hc ha hle heq =>
    obtain rfl : next = .remaking := by
      rw [heq, (hc.performAll ha fireClosed).2] at hp'
      exact hp'
    obtain ⟨rfl, hphase, rfl⟩ := Phase.openSucceeded_of_remaking hn hp
    obtain ⟨k, rfl, hk⟩ := Signal.eq_opened_of_trigger ht
    have hbroken (row : Subscription) (hrow : row ∈ c.subscriptions) : row.Broken := by
      have hadm := h.tracking.shape row hrow
      rwa [Phase.marks, hphase] at hadm
    have hremade : d .remade = 0 := by
      have hrem := h.tracking.remade
      rwa [Phase.marks, hphase] at hrem
    have hparams : Subscriptions.remakeParams c.subscriptions = c.subscriptions.map (·.params) := by
      rw [Subscriptions.remakeParams, List.filter_eq_self.mpr]
      intro row hrow
      simp [Subscription.isBroken, (hbroken row hrow).state]
    obtain ⟨hcore, heffects⟩ := remake_of_connection
      (c.entering (.opened k (.ok ())) .remaking).reportEndpoint (k := k)
      (by rw [core_reportEndpoint]; exact hk)
    have hturn : c.handle (.opened k (.ok ())) =
        (c.entering (.opened k (.ok ())) .remaking).reportEndpoint.remake := heq
    rw [core_reportEndpoint] at hcore heffects
    have hrows : (Signal.prepare (.opened k (.ok ())) c).subscriptions = c.subscriptions := rfl
    simp only [Core.core_entering, hrows, hparams] at hcore heffects
    rw [hturn, hcore, heffects]
    refine ⟨k, rfl, hk, hk, hbroken, hremade, rfl, ?_⟩
    have hreport : (c.entering (.opened k (.ok ())) .remaking).reportEndpoint.effects.filter
        Effect.transmits = [] := by
      rw [effects_reportEndpoint, List.filter_eq_nil_iff]
      simp [Effect.transmits]
    rw [List.filter_append, hreport, List.nil_append]
    split
    · next hnil =>
      obtain hnil : c.subscriptions = [] := by simpa using hnil
      simp [hnil, Effect.transmits]
    · rw [List.map_map, List.filter_eq_self.mpr]
      · rfl
      · simp [Effect.transmits]

end Sound

end PubSub
