import PubSub.Proofs.Handling
import PubSub.Proofs.Shapes

/-! # Operations act on the row of their topic

While a client is started, an operation on a topic and the answer to one look
at the row of the topic only, change nothing else, and issue effects for the
topic alone. Such operations can be done one after another.
-/

namespace PubSub

/-- The effect is for the topic; the promises that are settled are among the given ones. -/
def Effect.IsOn (mine : PromiseId → Prop) (topic : Topic) : Effect → Prop
  | request (.subscribe _ params) => params.topic = topic
  | request (.unsubscribe _ t _) => t = topic
  | settle p _ => mine p
  | notify (.unsubscribed _ t _) => t = topic
  | _ => False

/-- A row of the topic that is not being renewed, with nothing in hand that is on another one. -/
structure Subscription.Keeps (mine : PromiseId → Prop) (topic : Topic) (row : Subscription) :
    Prop where
  onTopic : row.topic = topic
  remaking : row.remaking = false
  pending : ∀ w ∈ row.pending, w.isOn topic ∧ mine w.promise
  subscribing : ∀ p ∈ row.subscribing, mine p
  unsubscribing : ∀ r ∈ row.unsubscribing, mine r.promise

namespace Subscription.Keeps

variable {mine mine' : PromiseId → Prop} {topic : Topic} {row : Subscription}

theorem mono (h : row.Keeps mine topic) (hm : ∀ p, mine p → mine' p) : row.Keeps mine' topic where
  onTopic := h.onTopic
  remaking := h.remaking
  pending := fun w hw => (h.pending w hw).imp id (hm _)
  subscribing := fun p hp => hm p (h.subscribing p hp)
  unsubscribing := fun r hr => hm _ (h.unsubscribing r hr)

theorem append (h : row.Keeps mine topic) {w : Work} (hw : w.isOn topic) (hp : mine w.promise) :
    Keeps mine topic { row with pending := row.pending ++ [w] } := by
  refine { h with pending := fun v hv => ?_ }
  rcases List.mem_append.mp hv with hv | hv
  · exact h.pending v hv
  · obtain rfl := List.mem_singleton.mp hv
    exact ⟨hw, hp⟩

end Subscription.Keeps

namespace Turn

variable {mine : PromiseId → Prop} {k : ConnectionId} {topic other : Topic}
  {row : Subscription} {row? row?' : Option Subscription} {es : List Effect} {t t' : Turn}
  {f g : Turn → Turn}

/-- A turn of a started client in which the topic has the row. -/
structure At (k : ConnectionId) (topic : Topic) (row? : Option Subscription) (t : Turn) :
    Prop where
  started : t.core.phase = .started
  connection : t.core.connection = some k
  row : t.core.subscriptions.find? topic = row?

/-- The topic comes to have the row, effects are issued, and nothing else changes. -/
structure Becomes (topic : Topic) (row? : Option Subscription) (es : List Effect) (t t' : Turn) :
    Prop where
  core : t'.core = { t.core with subscriptions := t'.core.subscriptions }
  effects : t'.effects = t.effects ++ es
  sorted : t.core.subscriptions.Sorted → t'.core.subscriptions.Sorted
  row : t'.core.subscriptions.find? topic = row?
  others : ∀ other ≠ topic,
    t'.core.subscriptions.find? other = t.core.subscriptions.find? other

theorem Becomes.at_other (h : t.Becomes topic row?' es t') (hat : t.At k other row?)
    (hne : other ≠ topic) : t'.At k other row? where
  started := by rw [h.core]; exact hat.started
  connection := by rw [h.core]; exact hat.connection
  row := (h.others other hne).trans hat.row

theorem Becomes.at_self (h : t.Becomes topic row?' es t') (hat : t.At k topic row?) :
    t'.At k topic row?' where
  started := by rw [h.core]; exact hat.started
  connection := by rw [h.core]; exact hat.connection
  row := h.row

/-- What becomes of the topic, and the effects that are issued, depend on its row alone. -/
def ActsOn (mine : PromiseId → Prop) (k : ConnectionId) (topic : Topic)
    (row? : Option Subscription) (f : Turn → Turn) : Prop :=
  ∃ row?' es, (∀ row ∈ row?', row.Keeps mine topic) ∧ (∀ e ∈ es, e.IsOn mine topic) ∧
    ∀ t : Turn, t.At k topic row? → t.Becomes topic row?' es (f t)

namespace ActsOn

theorem congr (h : ActsOn mine k topic row? f) (hfg : ∀ t : Turn, t.At k topic row? → g t = f t) :
    ActsOn mine k topic row? g := by
  obtain ⟨row?', es, hrow, hes, hacts⟩ := h
  exact ⟨row?', es, hrow, hes, fun t hat => hfg t hat ▸ hacts t hat⟩

theorem id (h : ∀ row ∈ row?, row.Keeps mine topic) : ActsOn mine k topic row? fun t => t :=
  ⟨row?, [], h, by simp, fun t hat => ⟨rfl, by simp, fun hs => hs, hat.row, fun _ _ => rfl⟩⟩

/-- One operation on the topic after another is again one. -/
theorem comp (hf : ActsOn mine k topic row? f)
    (hg : ∀ row?', (∀ row ∈ row?', row.Keeps mine topic) → ActsOn mine k topic row?' g) :
    ActsOn mine k topic row? fun t => g (f t) := by
  obtain ⟨row₁, es₁, hrow₁, hes₁, hacts₁⟩ := hf
  obtain ⟨row₂, es₂, hrow₂, hes₂, hacts₂⟩ := hg row₁ hrow₁
  refine ⟨row₂, es₁ ++ es₂, hrow₂, fun e he => ?_, fun t hat => ?_⟩
  · exact (List.mem_append.mp he).elim (hes₁ e) (hes₂ e)
  · have h₁ := hacts₁ t hat
    have h₂ := hacts₂ (f t) (h₁.at_self hat)
    refine ⟨?_, ?_, fun hs => h₂.sorted (h₁.sorted hs), h₂.row, fun other hne => ?_⟩
    · rw [h₂.core, h₁.core]
    · rw [h₂.effects, h₁.effects, List.append_assoc]
    · rw [h₂.others other hne, h₁.others other hne]

theorem putRow (h : row.Keeps mine topic) : ActsOn mine k topic row? (·.putRow row) := by
  refine ⟨some row, [], by simpa using h, by simp, fun t _ => ⟨rfl, by simp, ?_, ?_, ?_⟩⟩
  · exact fun hs => hs.put row
  · exact Subscriptions.find?_put.trans (if_pos h.onTopic)
  · intro other hne
    exact Subscriptions.find?_put.trans (if_neg fun he => hne (he.symm.trans h.onTopic))

theorem eraseRow : ActsOn mine k topic row? (·.eraseRow topic) := by
  refine ⟨none, [], by simp, by simp, fun t _ => ⟨rfl, by simp, ?_, ?_, ?_⟩⟩
  · exact fun hs => hs.erase topic
  · exact Subscriptions.find?_erase.trans (if_pos rfl)
  · exact fun other hne => Subscriptions.find?_erase.trans (if_neg hne)

theorem emit {e : Effect} (he : e.IsOn mine topic) (h : ∀ row ∈ row?, row.Keeps mine topic) :
    ActsOn mine k topic row? (·.emit e) :=
  ⟨row?, [e], h, by simpa using he, fun t hat =>
    ⟨rfl, effects_emit t e, fun hs => hs, hat.row, fun _ _ => rfl⟩⟩

theorem settleAll {ps : List PromiseId} (hps : ∀ p ∈ ps, mine p) (result : Outcome)
    (h : ∀ row ∈ row?, row.Keeps mine topic) :
    ActsOn mine k topic row? (·.settleAll ps result) := by
  induction ps generalizing row? with
  | nil => exact id h
  | cons p ps ih =>
    exact comp (emit (e := .settle p result) (hps p (List.mem_cons_self ..)) h) fun _ h' =>
      ih (fun q hq => hps q (List.mem_cons_of_mem _ hq)) h'

theorem executeSubscribe {r : SubscribeRequest} (ht : r.params.topic = topic)
    (hp : mine r.promise) (h : ∀ row ∈ row?, row.Keeps mine topic) :
    ActsOn mine k topic row? (·.executeSubscribe k r) := by
  subst ht
  cases row? with
  | none =>
    have hnew : (Subscription.new r).Keeps mine r.params.topic :=
      ⟨rfl, rfl, nofun, by rintro _ ⟨⟩; exact hp, nofun⟩
    refine congr (comp (putRow hnew) fun _ h' =>
      emit (e := .request (.subscribe k r.params)) rfl h') fun t hat => ?_
    simp only [Turn.executeSubscribe, hat.row]
    rfl
  | some row =>
    have hrow := h row rfl
    by_cases hidle : row.isIdle
    · refine congr (emit (e := .settle r.promise
        (.error (.alreadySubscribed r.params.topic.address))) hp h) fun t hat => ?_
      simp only [Turn.executeSubscribe, hat.row, hidle, if_true]
      rfl
    · have hon : (Work.subscribe r).isOn r.params.topic := by simp [Work.isOn]
      refine congr (putRow (hrow.append hon hp)) fun t hat => ?_
      simp only [Turn.executeSubscribe, hat.row, hidle]
      rfl

theorem executeUnsubscribe {r : UnsubscribeRequest} (ht : r.topic = topic)
    (hp : mine r.promise) (h : ∀ row ∈ row?, row.Keeps mine topic) :
    ActsOn mine k topic row? (·.executeUnsubscribe k r) := by
  subst ht
  cases row? with
  | none =>
    refine congr (emit (e := .settle r.promise (.error (.notSubscribed r.topic.address))) hp h)
      fun t hat => ?_
    simp only [Turn.executeUnsubscribe, hat.row]
    rfl
  | some row =>
    have hrow := h row rfl
    by_cases hsettled : row.state = .established ∧ row.pending.isEmpty
    · have hdetach : Subscription.Keeps mine r.topic
          { row with state := .detaching, unsubscribing := some r } :=
        { hrow with unsubscribing := by rintro _ ⟨⟩; exact hp }
      refine congr (comp (putRow hdetach) fun _ h' =>
        emit (e := .request (.unsubscribe k r.topic r.zeroTtl)) rfl h') fun t hat => ?_
      simp only [Turn.executeUnsubscribe, hat.row]
      rw [if_pos hsettled]
      rfl
    · have hon : (Work.unsubscribe r).isOn r.topic := by simp [Work.isOn]
      refine congr (putRow (hrow.append hon hp)) fun t hat => ?_
      simp only [Turn.executeUnsubscribe, hat.row]
      rw [if_neg hsettled]

theorem onWork {w : Work} (hw : w.isOn topic) (hp : mine w.promise)
    (h : ∀ row ∈ row?, row.Keeps mine topic) : ActsOn mine k topic row? (·.onWork w) := by
  have hexecute (t : Turn) (hat : t.At k topic row?) : t.onWork w = t.execute w :=
    onWork_of_started hat.started w
  cases w with
  | send r => cases hw
  | subscribe r =>
    refine congr (executeSubscribe (by simpa [Work.isOn] using hw) hp h) fun t hat => ?_
    rw [hexecute t hat, execute, hat.connection]
  | unsubscribe r =>
    refine congr (executeUnsubscribe (by simpa [Work.isOn] using hw) hp h) fun t hat => ?_
    rw [hexecute t hat, execute, hat.connection]

theorem replay {ws : List Work} (hws : ∀ w ∈ ws, w.isOn topic ∧ mine w.promise)
    (h : ∀ row ∈ row?, row.Keeps mine topic) : ActsOn mine k topic row? (·.replay ws) := by
  induction ws generalizing row? with
  | nil => exact id h
  | cons w ws ih =>
    obtain ⟨hw, hp⟩ := hws w (List.mem_cons_self ..)
    exact comp (onWork hw hp h) fun _ h' =>
      ih (fun v hv => hws v (List.mem_cons_of_mem _ hv)) h'

theorem onAttached (h : row.Keeps mine topic) (result : Outcome) :
    ActsOn mine k topic row? (·.onAttached row result) := by
  have hps : ∀ p ∈ row.subscribing.toList, mine p := by simpa using h.subscribing
  cases result with
  | ok =>
    have hrow : Subscription.Keeps mine topic { row with
        state := .established, establishedOnce := true, subscribing := none, pending := [] } :=
      ⟨h.onTopic, h.remaking, nofun, nofun, h.unsubscribing⟩
    exact comp (comp (putRow hrow) fun _ h' => settleAll hps _ h') fun _ h' => replay h.pending h'
  | error e =>
    have herase : ActsOn mine k topic row? (·.eraseRow row.topic) := h.onTopic ▸ eraseRow
    exact comp (comp herase fun _ h' => settleAll hps _ h') fun _ h' => replay h.pending h'

theorem onDetached (h : row.Keeps mine topic) (result : Outcome) :
    ActsOn mine k topic row? (·.onDetached row result) := by
  have hps : ∀ p ∈ (row.unsubscribing.map (·.promise)).toList, mine p := by
    intro p hp
    obtain ⟨r, hr, rfl⟩ := Option.map_eq_some_iff.mp (Option.mem_toList.mp hp)
    exact h.unsubscribing r hr
  cases result with
  | ok =>
    have herase : ActsOn mine k topic row? (·.eraseRow row.topic) := h.onTopic ▸ eraseRow
    have htold : Effect.IsOn mine topic (.notify (.unsubscribed row.listener row.topic none)) :=
      h.onTopic
    exact comp (comp (comp herase fun _ h' => settleAll hps _ h') fun _ h' => emit htold h')
      fun _ h' => replay h.pending h'
  | error e =>
    have hrow : Subscription.Keeps mine topic
        { row with state := .established, unsubscribing := none, pending := [] } :=
      ⟨h.onTopic, h.remaking, nofun, h.subscribing, nofun⟩
    exact comp (comp (putRow hrow) fun _ h' => settleAll hps _ h') fun _ h' => replay h.pending h'

theorem onSubscribed (k' : ConnectionId) (result : Outcome)
    (h : ∀ row ∈ row?, row.Keeps mine topic) :
    ActsOn mine k topic row? (·.onSubscribed k' topic result) := by
  by_cases hskip : k ≠ k' ∨ row? = none ∨ Outcome.isRetryable result
  · refine congr (id h) fun t hat => ?_
    unfold Turn.onSubscribed Core.isCurrent
    rcases hskip with hk | hnone | hr
    · simp [hat.connection, hk]
    · simp [hat.row, hnone]
    · cases row? <;> simp [hat.row, hr]
  · simp only [not_or, not_not] at hskip
    obtain ⟨rfl, hsome, hr⟩ := hskip
    obtain ⟨row, rfl⟩ := Option.ne_none_iff_exists'.mp hsome
    have hrow := h row rfl
    refine congr (onAttached hrow result) fun t hat => ?_
    have hstopping : t.core.phase.isStopping = false := by rw [hat.started]; rfl
    simp [Turn.onSubscribed, Core.isCurrent, hat.connection, hat.row, hr, hstopping, hrow.remaking]

theorem onUnsubscribed (k' : ConnectionId) (result : Outcome)
    (h : ∀ row ∈ row?, row.Keeps mine topic) :
    ActsOn mine k topic row? (·.onUnsubscribed k' topic result) := by
  by_cases hskip : k ≠ k' ∨ row? = none ∨ Outcome.isRetryable result
  · refine congr (id h) fun t hat => ?_
    unfold Turn.onUnsubscribed Core.isCurrent
    rcases hskip with hk | hnone | hr
    · simp [hat.connection, hk]
    · simp [hat.row, hnone]
    · cases row? <;> simp [hr]
  · simp only [not_or, not_not] at hskip
    obtain ⟨rfl, hsome, hr⟩ := hskip
    obtain ⟨row, rfl⟩ := Option.ne_none_iff_exists'.mp hsome
    refine congr (onDetached (h row rfl) result) fun t hat => ?_
    have hstopping : t.core.phase.isStopping = false := by rw [hat.started]; rfl
    simp [Turn.onUnsubscribed, Core.isCurrent, hat.connection, hat.row, hr, hstopping]

end ActsOn

end Turn

/-- The topic that the signal is about, if it is an operation on one or the answer to one. -/
def Signal.topic? : Signal → Option Topic
  | work (.subscribe r) => some r.params.topic
  | work (.unsubscribe r) => some r.topic
  | subscribed _ topic _ => some topic
  | unsubscribed _ topic _ => some topic
  | _ => none

theorem Turn.ActsOn.handle {mine : PromiseId → Prop} {k : ConnectionId} {topic : Topic}
    {row? : Option Subscription} {x : Signal} (hx : x.topic? = some topic)
    (hp : ∀ w, x = .work w → mine w.promise) (h : ∀ row ∈ row?, row.Keeps mine topic) :
    ActsOn mine k topic row? (·.handle x) := by
  cases x with
  | work w =>
    cases w with
    | send r => cases hx
    | subscribe r =>
      exact onWork (by simpa [Work.isOn, Signal.topic?] using hx) (hp _ rfl) h
    | unsubscribe r =>
      exact onWork (by simpa [Work.isOn, Signal.topic?] using hx) (hp _ rfl) h
  | subscribed k' t result =>
    obtain rfl := Option.some.inj hx
    exact onSubscribed k' result h
  | unsubscribed k' t result =>
    obtain rfl := Option.some.inj hx
    exact onUnsubscribed k' result h
  | _ => cases hx

end PubSub
