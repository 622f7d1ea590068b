import PubSub.Proofs.Lines

/-! # The row of a topic in the course of a turn

The row of a topic begins with a subscribe that a started client asks of the
server. Then its parameters and its listener stay, and only an answer of the
server says that it is acknowledged, until an answer or the end of the session
removes it. Nothing else tells a listener that its row is over. A turn that
removes a row may begin another one for the same topic.
-/

namespace PubSub

open Turn

/-- What was asked for, and the listener that it was asked for with. -/
abbrev Lease := SubscribeParams × ListenerId

/-- What stays the same while there is the row. -/
def Subscription.lease (row : Subscription) : Lease := (row.params, row.listener)

def Subscription.standing (row : Subscription) : Lease × Bool := (row.lease, row.establishedOnce)

namespace Effect

variable {topic : Topic} {e : Effect}

def subscribesTo (topic : Topic) : Effect → Bool
  | request (.subscribe _ params) => params.topic = topic
  | _ => false

/-- The listener that is told of the end of a row of the topic, and the cause. -/
def ended? (topic : Topic) : Effect → Option (ListenerId × Option ClientError)
  | notify (.unsubscribed listener t cause) => if t = topic then some (listener, cause) else none
  | _ => none

theorem subscribesTo_of_not_isOfLoad (h : e.isOfLoad = false) : e.subscribesTo topic = false := by
  cases e with
  | request r => cases r <;> first | rfl | cases h
  | _ => rfl

theorem subscribesTo_of_isEnding (h : e.isEnding) : e.subscribesTo topic = false := by
  cases e with
  | request r => cases r <;> first | rfl | cases h
  | _ => rfl

theorem ended?_of_not_isOfLoad (h : e.isOfLoad = false) : e.ended? topic = none := by
  cases e with
  | notify n => cases n <;> first | rfl | cases h
  | _ => rfl

end Effect

/-- A row of the topic begins: a started client asks the server for it. Renewals are asked for
before the client is started again. -/
def Issued.begins (topic : Topic) (i : Issued) : Bool :=
  i.core.phase = .started && i.effect.subscribesTo topic

/-- The error of the server in an answer to a subscribe. -/
def Signal.refusal? : Signal → Option ClientError
  | subscribed _ _ (.error e) => some e
  | _ => none

/-- The server acknowledges the row of the topic, which does not count while the client is
stopping. -/
def Core.Establishes (c : Core) (topic : Topic) (x : Signal) : Prop :=
  (∃ k, x = .subscribed k topic (.ok ()) ∧ c.connection = some k) ∧ c.phase.isStopping = false

instance (c : Core) (topic : Topic) (x : Signal) : Decidable (c.Establishes topic x) :=
  decidable_of_iff
    (c.connection.any (fun k => x = .subscribed k topic (.ok ())) ∧ c.phase.isStopping = false) (by
      simp [Core.Establishes, Option.any_eq_true, and_comm])

theorem Core.not_establishes {c : Core} {topic : Topic} {x : Signal}
    (hx : ∀ k, x ≠ .subscribed k topic (.ok ())) : ¬ c.Establishes topic x :=
  fun ⟨⟨k, h, _⟩, _⟩ => hx k h

@[ext]
structure Tenure where
  row : Option (Lease × Bool)
  begun : Bool
  told : List (ListenerId × Option ClientError)

namespace Tenure

variable {c : Core} {topic : Topic} {x : Signal} {d d' d'' : Tenure}

/-- Only a row that was not there before begins. -/
def Grows (d d' : Tenure) : Prop :=
  d' = d ∨ d.row = none ∧ ∃ l, d' = { d with row := some (l, false), begun := true }

theorem Grows.trans (h : d.Grows d') (h' : d'.Grows d'') : d.Grows d'' := by
  rcases h with rfl | ⟨hnone, l, rfl⟩
  · exact h'
  · exact .inr ⟨hnone, l, h'.resolve_right fun h => nomatch h.1⟩

/-- Whether a row was removed, and another one begins. -/
def Gone (d d' : Tenure) : Prop :=
  d'.row = none ∧ d'.begun = d.begun ∨ ∃ l, d'.row = some (l, false) ∧ d'.begun = true

/-- What a turn does to the row of a topic. -/
inductive Moves (c : Core) (topic : Topic) (x : Signal) (d d' : Tenure) : Prop
  | absent (before : d.row = none) (eq : d' = d)
  | begins {l : Lease} (before : d.row = none)
    (eq : d' = { d with row := some (l, false), begun := true })
  | stays {l : Lease} {a a' : Bool} (before : d.row = some (l, a))
    (established : a' = true ↔ a = true ∨ c.Establishes topic x)
    (eq : d' = { d with row := some (l, a') })
  /-- The end of a row is told if the row was acknowledged, or if its renewal fails. -/
  | ends {l : Lease} {a : Bool} (before : d.row = some (l, a)) (gone : d.Gone d')
    (told : a = true ∨ c.FailsRenewal topic x → d'.told = d.told ++ [(l.2, x.refusal?)])
    (untold : ¬ (a = true ∨ c.FailsRenewal topic x) → d'.told = d.told)

namespace Moves

theorem of_grows (h : d.Grows d') (hx : ¬ c.Establishes topic x) : Moves c topic x d d' := by
  rcases h with rfl | ⟨hnone, l, rfl⟩
  · cases hrow : d'.row with
    | none => exact .absent hrow rfl
    | some row => exact .stays hrow (by simp [hx]) (Tenure.ext hrow rfl rfl)
  · exact .begins hnone rfl

theorem of_eq (h : d' = d) (hx : ¬ c.Establishes topic x) : Moves c topic x d d' :=
  of_grows (.inl h) hx

theorem of_removed {l : Lease} {a : Bool} {told : List (ListenerId × Option ClientError)}
    (before : d.row = some (l, a)) (h : Grows { d with row := none, told := told } d')
    (htold : a = true ∨ c.FailsRenewal topic x → told = d.told ++ [(l.2, x.refusal?)])
    (huntold : ¬ (a = true ∨ c.FailsRenewal topic x) → told = d.told) : Moves c topic x d d' := by
  have hd' : d'.told = told := by
    rcases h with rfl | ⟨-, l, rfl⟩ <;> rfl
  refine .ends before ?_ (fun h => hd'.trans (htold h)) fun h => hd'.trans (huntold h)
  rcases h with rfl | ⟨-, l, rfl⟩
  · exact .inl ⟨rfl, rfl⟩
  · exact .inr ⟨l, rfl, rfl⟩

end Moves

end Tenure

namespace Turn

variable {t t' : Turn} {topic : Topic} {row : Subscription}

def tenure (topic : Topic) (t : Turn) : Tenure where
  row := (t.core.subscriptions.find? topic).map Subscription.standing
  begun := t.issued.any (·.begins topic)
  told := t.effects.filterMap (Effect.ended? topic)

theorem tenure_emit (t : Turn) (e : Effect) : (t.emit e).tenure topic = { t.tenure topic with
    begun := (t.tenure topic).begun || Issued.begins topic ⟨e, t.core⟩
    told := (t.tenure topic).told ++ (e.ended? topic).toList } := by
  have hsingle : [e].filterMap (Effect.ended? topic) = (e.ended? topic).toList := by
    cases h : e.ended? topic <;> simp [h]
  simp [tenure, emit, effects, hsingle]

theorem tenure_emit_of_none {e : Effect} (hb : Issued.begins topic ⟨e, t.core⟩ = false)
    (he : e.ended? topic = none) : (t.emit e).tenure topic = t.tenure topic := by
  rw [tenure_emit, hb, he]
  simp

theorem tenure_emit_of_not {e : Effect} (hs : e.subscribesTo topic = false)
    (he : e.ended? topic = none) : (t.emit e).tenure topic = t.tenure topic :=
  tenure_emit_of_none (by simp [Issued.begins, hs]) he

@[simp]
theorem tenure_settle (t : Turn) (result : Outcome) (p : PromiseId) :
    (t.settle result p).tenure topic = t.tenure topic :=
  tenure_emit_of_not rfl rfl

@[simp]
theorem tenure_settleAll (t : Turn) (ps : List PromiseId) (result : Outcome) :
    (t.settleAll ps result).tenure topic = t.tenure topic := by
  induction ps generalizing t with
  | nil => rfl
  | cons p ps ih => exact (ih (t.settle result p)).trans (tenure_settle t result p)

theorem tenure_unsubscribed (t : Turn) (l : ListenerId) (other : Topic)
    (cause : Option ClientError) : (t.notify (.unsubscribed l other cause)).tenure topic =
      { t.tenure topic with told := (t.tenure topic).told ++
          if other = topic then [(l, cause)] else [] } := by
  rw [notify, tenure_emit]
  simp only [Issued.begins, Effect.subscribesTo, Effect.ended?, Bool.and_false, Bool.or_false]
  split <;> rfl

@[simp]
theorem tenure_remakeSettled (t : Turn) : t.remakeSettled.tenure topic = t.tenure topic := by
  unfold remakeSettled
  dsimp only
  split
  · exact tenure_emit_of_not (t := t.update _) rfl rfl
  · rfl

theorem tenure_putRow (t : Turn) (h : row.topic = topic) : (t.putRow row).tenure topic =
    { t.tenure topic with row := some row.standing } := by
  simp only [tenure, find?_putRow t row h]
  rfl

theorem tenure_putRow_of_ne (t : Turn) (h : row.topic ≠ topic) :
    (t.putRow row).tenure topic = t.tenure topic := by
  simp [tenure, putRow, update, effects, Subscriptions.find?_put, h]

theorem tenure_putRow_same {row' : Subscription}
    (hf : t.core.subscriptions.find? row.topic = some row) (ht : row'.topic = row.topic)
    (hs : row'.standing = row.standing) : (t.putRow row').tenure topic = t.tenure topic := by
  by_cases h : row.topic = topic
  · subst h
    rw [tenure_putRow t ht, hs]
    simp [tenure, hf]
  · exact tenure_putRow_of_ne t (ht ▸ h)

theorem tenure_eraseRow (t : Turn) (topic : Topic) :
    (t.eraseRow topic).tenure topic = { t.tenure topic with row := none } := by
  simp only [tenure, find?_eraseRow t topic]
  rfl

theorem tenure_eraseRow_of_ne (t : Turn) {other : Topic} (h : other ≠ topic) :
    (t.eraseRow other).tenure topic = t.tenure topic := by
  simp [tenure, eraseRow, update, effects, Subscriptions.find?_erase, h.symm]

theorem Leaves.tenure (h : t.Leaves t') : t'.tenure topic = t.tenure topic := by
  obtain ⟨more, hi, hm⟩ := h.issued
  have hload (i : Issued) (hmem : i ∈ more) : i.effect.isOfLoad = false :=
    (Issued.isOfLoad_eq_false.mp (hm i hmem)).1
  have hbegun : more.any (·.begins topic) = false := by
    rw [List.any_eq_false]
    exact fun i hmem => by
      simp [Issued.begins, Effect.subscribesTo_of_not_isOfLoad (hload i hmem)]
  have htold : (more.map (·.effect)).filterMap (Effect.ended? topic) = [] := by
    rw [List.filterMap_eq_nil_iff]
    intro e he
    obtain ⟨i, hmem, rfl⟩ := List.mem_map.mp he
    exact Effect.ended?_of_not_isOfLoad (hload i hmem)
  have hrows : t'.core.subscriptions = t.core.subscriptions := congrArg Load.subscriptions h.load
  simp [Turn.tenure, effects, hrows, hi, hbegun, htold]

theorem Extends.tenure (h : t.Extends t') {es : List Effect} (he : t'.effects = t.effects ++ es)
    (hes : ∀ e ∈ es, e.subscribesTo topic = false) : t'.tenure topic =
      { row := (t'.core.subscriptions.find? topic).map Subscription.standing
        begun := (t.tenure topic).begun
        told := (t.tenure topic).told ++ es.filterMap (Effect.ended? topic) } := by
  obtain ⟨more, hi, rfl⟩ := h.issued he
  have hbegun : more.any (·.begins topic) = false := by
    rw [List.any_eq_false]
    exact fun i hmem => by simp [Issued.begins, hes _ (List.mem_map_of_mem hmem)]
  simp only [Turn.tenure, he, List.filterMap_append, hi, List.any_append, hbegun, Bool.or_false]

section Work

theorem tenure_keep (t : Turn) (w : Work) : (t.keep w).tenure topic = t.tenure topic := rfl

theorem tenure_reject (t : Turn) (w : Work) (cause : ClientError) :
    (t.reject w cause).tenure topic = t.tenure topic := by
  cases w with
  | send r => exact tenure_emit_of_not rfl rfl
  | subscribe r | unsubscribe r => exact tenure_settle ..

variable {k : ConnectionId}

theorem grows_executeSubscribe (hp : t.core.phase = .started) (k : ConnectionId)
    (r : SubscribeRequest) :
    (t.tenure topic).Grows ((t.executeSubscribe k r).tenure topic) := by
  unfold executeSubscribe
  split
  · next hf =>
    have ht : (Subscription.new r).topic = r.params.topic := rfl
    rw [request, tenure_emit]
    by_cases h : r.params.topic = topic
    · refine .inr ⟨?_, (r.params, r.listener), ?_⟩
      · simp [tenure, ← h, hf]
      · rw [tenure_putRow t (ht.trans h)]
        simp [Issued.begins, Effect.subscribesTo, Effect.ended?, Subscription.standing,
          Subscription.lease, Subscription.new, hp, h]
    · left
      rw [tenure_putRow_of_ne t (ht ▸ h)]
      simp [Issued.begins, Effect.subscribesTo, Effect.ended?, h]
  · next row hf =>
    have hf : t.core.subscriptions.find? row.topic = some row :=
      (Subscriptions.find?_eq_some hf).2 ▸ hf
    split
    · exact .inl (tenure_settle ..)
    · exact .inl (tenure_putRow_same hf rfl rfl)

theorem tenure_executeUnsubscribe (t : Turn) (k : ConnectionId) (r : UnsubscribeRequest) :
    (t.executeUnsubscribe k r).tenure topic = t.tenure topic := by
  unfold executeUnsubscribe
  split
  · exact tenure_settle ..
  · next row hf =>
    have hf : t.core.subscriptions.find? row.topic = some row :=
      (Subscriptions.find?_eq_some hf).2 ▸ hf
    split
    · exact (tenure_emit_of_not rfl rfl).trans (tenure_putRow_same hf rfl rfl)
    · exact tenure_putRow_same hf rfl rfl

theorem grows_execute (hp : t.core.phase = .started) (w : Work) :
    (t.tenure topic).Grows ((t.execute w).tenure topic) := by
  unfold execute
  split
  · exact .inl (tenure_keep t w)
  · split
    · refine .inl ?_
      exact tenure_emit_of_not (t := t.update _) rfl rfl
    · exact grows_executeSubscribe hp ..
    · exact .inl (tenure_executeUnsubscribe ..)

theorem grows_onWork (t : Turn) (w : Work) :
    (t.tenure topic).Grows ((t.onWork w).tenure topic) := by
  unfold onWork
  split
  · exact .inl (tenure_reject ..)
  · exact .inl (tenure_keep ..)
  · next hp => exact grows_execute (Phase.eq_started_of_accept hp) w

theorem grows_replay (topic : Topic) (t : Turn) (ws : List Work) :
    (t.tenure topic).Grows ((t.replay ws).tenure topic) := by
  induction ws generalizing t with
  | nil => exact .inl rfl
  | cons w ws ih => exact (grows_onWork t w).trans (ih (t.onWork w))

end Work

section Actions

variable {k : ConnectionId} {rows : Subscriptions}

theorem tenure_map {f : Subscription → Subscription} (ht : ∀ row, (f row).topic = row.topic)
    (hs : ∀ row, (f row).standing = row.standing) :
    (Subscriptions.find? (rows.map f) topic).map Subscription.standing =
      (rows.find? topic).map Subscription.standing := by
  rw [Subscriptions.find?_map ht, Option.map_map]
  congr 1
  exact funext hs

theorem tenure_breakConnection (t : Turn) :
    t.breakConnection.tenure topic = t.tenure topic := by
  have he := effects_breakConnection t
  rw [List.append_assoc] at he
  rw [(Extends.breakConnection t).tenure he, List.filterMap_eq_nil_iff.mpr, List.append_nil,
    core_breakConnection]
  · exact congrArg (Tenure.mk · _ _) (tenure_map (fun _ => rfl) fun _ => rfl)
  all_goals
    simp only [List.mem_append, List.mem_map, List.mem_singleton]
    rintro e (⟨send, -, rfl⟩ | rfl) <;> rfl

theorem tenure_remake (hk : t.core.connection = some k) (hp : t.core.phase ≠ .started) :
    t.remake.tenure topic = t.tenure topic := by
  have hbegins (e : Effect) (c : Core) (hc : c.phase = t.core.phase) :
      Issued.begins topic ⟨e, c⟩ = false := by simp [Issued.begins, hc, hp]
  have hall (params : List SubscribeParams) (v : Turn) (hv : v.core.phase = t.core.phase) :
      (params.foldl (subscribeAgain k) v).tenure topic = v.tenure topic := by
    induction params generalizing v with
    | nil => rfl
    | cons p params ih =>
      exact (ih (subscribeAgain k v p) hv).trans (tenure_emit_of_none (hbegins _ _ hv) rfl)
  have hremade (n : Nat) : (t.update fun c => { c with
      subscriptions := c.subscriptions.remake, remakesOutstanding := n }).tenure topic =
        t.tenure topic := by
    refine congrArg (Tenure.mk · _ _) (tenure_map Subscription.topic_remake fun row => ?_)
    unfold Subscription.remake
    split <;> rfl
  unfold remake
  rw [hk]
  dsimp only
  split
  · refine Eq.trans ?_ (hremade t.core.subscriptions.remakeParams.length)
    exact tenure_emit_of_none (hbegins _ _ rfl) rfl
  · refine Eq.trans ?_ (hremade t.core.subscriptions.remakeParams.length)
    exact hall _ _ rfl

theorem ended?_ending (row : Subscription) : row.ending.filterMap (Effect.ended? topic) =
    if row.topic = topic ∧ row.establishedOnce then [(row.listener, none)] else [] := by
  have hsettled : (row.promises.map (Effect.settle · (.error .clientStopped))).filterMap
      (Effect.ended? topic) = [] := by
    rw [List.filterMap_eq_nil_iff]
    simp [Effect.ended?]
  rw [Subscription.ending, List.filterMap_append, hsettled, List.nil_append]
  cases row.establishedOnce <;> simp [Effect.ended?, List.filterMap_cons]
  split <;> simp_all

theorem ended?_endings (hs : rows.Sorted) :
    (rows.flatMap Subscription.ending).filterMap (Effect.ended? topic) =
      (rows.find? topic).toList.flatMap fun row =>
        if row.establishedOnce then [(row.listener, none)] else [] := by
  induction rows with
  | nil => rfl
  | cons row rest ih =>
    obtain ⟨hbefore, hrest⟩ := List.pairwise_cons.mp hs
    rw [List.flatMap_cons, List.filterMap_append, ih hrest, ended?_ending,
      Subscriptions.find?_cons]
    by_cases ht : row.topic = topic
    · subst ht
      have hnone : Subscriptions.find? rest row.topic = none :=
        Subscriptions.find?_eq_none.mpr fun r hr => (Topic.ne_of_before (hbefore r hr)).symm
      simp [hnone]
    · simp [ht]

theorem tenure_cleanup (hs : t.core.subscriptions.Sorted) : t.cleanup.tenure topic =
    { t.tenure topic with
      row := none
      told := (t.tenure topic).told ++ (t.tenure topic).row.toList.flatMap fun (l, a) =>
        if a then [(l.2, none)] else [] } := by
  have he := effects_cleanup t
  simp only [List.append_assoc] at he
  have hcore : t.cleanup.core.subscriptions = [] := by rw [core_cleanup]
  obtain ⟨es, hes, hending⟩ := ending_cleanup t
  obtain rfl := List.append_cancel_left (he.symm.trans hes)
  rw [(Extends.cleanup t).tenure he fun e hm => Effect.subscribesTo_of_isEnding (hending e hm),
    List.filterMap_append, ended?_endings hs, hcore, List.filterMap_eq_nil_iff.mpr, List.append_nil]
  · cases hf : t.core.subscriptions.find? topic <;>
      simp [tenure, hf, Subscription.standing, Subscription.lease]
  · simp only [List.mem_append, List.mem_map, List.mem_singleton]
    rintro e (⟨send, -, rfl⟩ | ⟨w, -, rfl⟩ | ⟨n, -, rfl⟩ | rfl)
    · rfl
    · cases w <;> rfl
    · rfl
    · rfl

end Actions

section Answers

variable {c : Core} {k : ConnectionId} {result : Outcome}

theorem tenure_onSent (t : Turn) (k : ConnectionId) (id : Nat) (result : Outcome) :
    (t.onSent k id result).tenure topic = t.tenure topic := by
  unfold onSent
  split
  · rfl
  · split_ifs
    · rfl
    · rfl
    · exact tenure_emit_of_not (t := t.update _) rfl rfl

theorem tenure_onSubscribedStopping (hf : t.core.subscriptions.find? row.topic = some row) :
    (t.onSubscribedStopping row).tenure topic = t.tenure topic := by
  unfold onSubscribedStopping
  split
  · rw [tenure_remakeSettled]
    exact tenure_putRow_same hf rfl rfl
  · rfl

variable (hf : c.subscriptions.find? row.topic = some row)
include hf

theorem row_tenure_begin (h : row.topic = topic) :
    ((begin c).tenure topic).row = some (row.lease, row.establishedOnce) := by
  subst h
  simp [tenure, hf, Subscription.standing]

/-- The listener is told of a failed renewal, even if the row was never acknowledged. -/
theorem tenure_onRemade (hk : c.connection = some k) (hp : c.phase.isStopping = false)
    (hr : row.remaking) :
    Tenure.Moves c topic (.subscribed k row.topic result) ((begin c).tenure topic)
      (((begin c).onRemade row result).tenure topic) := by
  cases result with
  | ok =>
    simp only [onRemade, tenure_remakeSettled, tenure_settleAll]
    by_cases h : row.topic = topic
    · subst h
      have hack : c.Establishes row.topic (.subscribed k row.topic (.ok ())) := ⟨⟨k, rfl, hk⟩, hp⟩
      exact .stays (row_tenure_begin hf rfl) (iff_of_true rfl (.inr hack)) (tenure_putRow _ rfl)
    · exact .of_eq (tenure_putRow_of_ne _ h) (Core.not_establishes fun _ => by simp [h])
  | error e =>
    simp only [onRemade, tenure_remakeSettled, tenure_unsubscribed, tenure_settleAll]
    by_cases h : row.topic = topic
    · subst h
      have hfails : c.FailsRenewal row.topic (.subscribed k row.topic (.error e)) :=
        ⟨k, e, row, rfl, hk, hf, hr⟩
      rw [tenure_eraseRow, if_pos rfl]
      exact .ends (row_tenure_begin hf rfl) (.inl ⟨rfl, rfl⟩) (fun _ => rfl)
        fun hnot => absurd (.inr hfails) hnot
    · rw [tenure_eraseRow_of_ne _ h, if_neg h]
      exact .of_eq (Tenure.ext rfl rfl (List.append_nil _)) (Core.not_establishes fun _ => by simp)

theorem tenure_onAttached (hk : c.connection = some k) (hp : c.phase.isStopping = false)
    (hattaching : row.Attaching) :
    Tenure.Moves c topic (.subscribed k row.topic result) ((begin c).tenure topic)
      (((begin c).onAttached row result).tenure topic) := by
  cases result with
  | ok =>
    let row' : Subscription := { row with
      state := .established, establishedOnce := true, subscribing := none, pending := [] }
    have ht : row'.topic = row.topic := rfl
    have hgrows := grows_replay topic
      (((begin c).putRow row').settleAll row.subscribing.toList (.ok ())) row.pending
    rw [tenure_settleAll] at hgrows
    by_cases h : row.topic = topic
    · subst h
      have hack : c.Establishes row.topic (.subscribed k row.topic (.ok ())) := ⟨⟨k, rfl, hk⟩, hp⟩
      rw [tenure_putRow _ ht] at hgrows
      exact .stays (row_tenure_begin hf rfl) (iff_of_true rfl (.inr hack))
        (hgrows.resolve_right fun hnone => nomatch hnone.1)
    · rw [tenure_putRow_of_ne _ (ht ▸ h)] at hgrows
      exact .of_grows hgrows (Core.not_establishes fun _ => by simp [h])
  | error e =>
    have hgrows := grows_replay topic (((begin c).eraseRow row.topic).settleAll
      row.subscribing.toList (.error e)) row.pending
    rw [tenure_settleAll] at hgrows
    by_cases h : row.topic = topic
    · subst h
      have hnot : ¬ (row.establishedOnce = true ∨
          c.FailsRenewal row.topic (.subscribed k row.topic (.error e))) := by
        rintro (ha | ⟨_, _, row', -, -, hf', hr⟩)
        · rw [hattaching.establishedOnce] at ha
          cases ha
        · obtain rfl := Option.some.inj (hf.symm.trans hf')
          rw [hattaching.remaking] at hr
          cases hr
      rw [tenure_eraseRow] at hgrows
      exact .of_removed (row_tenure_begin hf rfl) hgrows (fun h => absurd h hnot) fun _ => rfl
    · rw [tenure_eraseRow_of_ne _ h] at hgrows
      exact .of_grows hgrows (Core.not_establishes fun _ => by simp)

theorem tenure_onDetached (hdetaching : row.Detaching) :
    Tenure.Moves c topic (.unsubscribed k row.topic result) ((begin c).tenure topic)
      (((begin c).onDetached row result).tenure topic) := by
  have hack : ¬ c.Establishes topic (.unsubscribed k row.topic result) :=
    Core.not_establishes fun _ => by simp
  cases result with
  | ok =>
    have hgrows := grows_replay topic ((((begin c).eraseRow row.topic).settleAll
      (row.unsubscribing.map (·.promise)).toList (.ok ())).notify
        (.unsubscribed row.listener row.topic none)) row.pending
    rw [tenure_unsubscribed, tenure_settleAll] at hgrows
    by_cases h : row.topic = topic
    · subst h
      rw [tenure_eraseRow, if_pos rfl] at hgrows
      exact .of_removed (row_tenure_begin hf rfl) hgrows (fun _ => rfl) fun hnot =>
        absurd (.inl hdetaching.establishedOnce) hnot
    · rw [tenure_eraseRow_of_ne _ h, if_neg h, List.append_nil] at hgrows
      exact .of_grows hgrows hack
  | error e =>
    let row' : Subscription :=
      { row with state := .established, unsubscribing := none, pending := [] }
    have ht : row'.topic = row.topic := rfl
    have hgrows := grows_replay topic (((begin c).putRow row').settleAll
      (row.unsubscribing.map (·.promise)).toList (.error e)) row.pending
    rw [tenure_settleAll, tenure_putRow_same (t := begin c) hf ht rfl] at hgrows
    exact .of_grows hgrows hack

end Answers

end Turn

/-- Subscriptions are remade before the client is started again. -/
theorem Phase.next_of_remakeSubscriptions {p next : Phase} {trigger : Trigger}
    {before after : List Action}
    (h : p.transition trigger = some ⟨next, before ++ .remakeSubscriptions :: after⟩) :
    next = .remaking := by
  have hall : ∀ (p : Phase) (trigger : Trigger), ∀ n ∈ p.transition trigger,
      .remakeSubscriptions ∈ n.actions → n.next = .remaking := by decide
  exact hall _ _ _ h (by simp)

theorem Core.not_establishes_of_isPlain {c : Core} {topic : Topic} {x : Signal}
    (hx : x.isPlain) : ¬ c.Establishes topic x := by
  refine not_establishes fun k => ?_
  rintro rfl
  cases hx

theorem Core.not_failsRenewal_of_isPlain {c : Core} {topic : Topic} {x : Signal}
    (hx : x.isPlain) : ¬ c.FailsRenewal topic x := by
  rintro ⟨k, e, row, rfl, -⟩
  cases hx

theorem Tenure.Moves.of_cleanup {c : Core} {topic : Topic} {x : Signal} {t : Turn}
    (hx : x.isPlain) (hs : t.core.subscriptions.Sorted) :
    Moves c topic x (t.tenure topic) (t.cleanup.tenure topic) := by
  have hrefusal : x.refusal? = none := by
    cases x with
    | subscribed => cases hx
    | _ => rfl
  rw [tenure_cleanup hs]
  cases hrow : (t.tenure topic).row with
  | none => exact .absent hrow (Tenure.ext hrow.symm rfl (List.append_nil _))
  | some row =>
    obtain ⟨l, a⟩ := row
    refine .ends hrow (.inl ⟨rfl, rfl⟩) (fun htold => ?_) fun hnot => ?_
    · have ha := htold.resolve_right (Core.not_failsRenewal_of_isPlain hx)
      simp [ha, hrefusal]
    · have ha : a = false := by simpa using fun ha => hnot (.inl ha)
      simp [ha]

namespace Sound

variable {lost : ConnectionId → Topic → Prop} {c : Core} {d env : Awaited → Nat} {x : Signal}
  {topic : Topic}

section Handle

variable (h : Sound lost c d) (hd : ∀ a, d a = env a + x.awaited.count a)
include h hd

theorem tenure_subscribed {k : ConnectionId} {other : Topic} {result : Outcome}
    (hx : x = .subscribed k other result) :
    Tenure.Moves c topic x ((begin c).tenure topic) ((c.handle x).tenure topic) := by
  subst hx
  cases h.subscribed_cases hd with
  | ignored late heq =>
    refine .of_eq (by rw [heq]) ?_
    rintro ⟨⟨k, hx, hk⟩, -⟩
    cases hx
    rcases late with hne | hr
    · exact hne hk
    · cases hr
  | stopping _ hf hstop heq =>
    obtain ⟨-, rfl⟩ := Subscriptions.find?_eq_some hf
    rw [heq]
    refine .of_eq (tenure_onSubscribedStopping hf) fun hack => ?_
    rw [hack.2] at hstop
    cases hstop
  | remade hk hf hrow hstop _ heq =>
    obtain ⟨-, rfl⟩ := Subscriptions.find?_eq_some hf
    rw [heq]
    exact tenure_onRemade hf hk (by simpa using hstop) hrow.remaking
  | attached hk hf hrow hp _ heq =>
    obtain ⟨-, rfl⟩ := Subscriptions.find?_eq_some hf
    rw [heq]
    exact tenure_onAttached hf hk (by rw [hp]; rfl) hrow

theorem tenure_unsubscribed {k : ConnectionId} {other : Topic} {result : Outcome}
    (hx : x = .unsubscribed k other result) :
    Tenure.Moves c topic x ((begin c).tenure topic) ((c.handle x).tenure topic) := by
  subst hx
  have hack : ¬ c.Establishes topic (.unsubscribed k other result) :=
    Core.not_establishes fun _ => by simp
  cases h.unsubscribed_cases hd with
  | ignored _ heq => exact .of_eq (by rw [heq]) hack
  | detached _ hf hrow _ _ heq =>
    obtain ⟨-, rfl⟩ := Subscriptions.find?_eq_some hf
    rw [heq]
    exact tenure_onDetached hf hrow

/-- The row of a topic is moved by every turn in one of these ways. -/
theorem tenure (hown : .lookup ∈ x.awaited → env .resume = 0) :
    Tenure.Moves c topic x ((begin c).tenure topic) ((c.handle x).tenure topic) := by
  have hhandles := h.handles hd hown
  cases hhandles.loads with
  | leaves hp hl => exact .of_eq hl.tenure (Core.not_establishes_of_isPlain hp)
  | steady hs hp =>
    cases x with
    | work w =>
      exact .of_grows (grows_onWork (begin c) w) (Core.not_establishes fun _ => by simp)
    | sent k id result =>
      exact .of_eq (tenure_onSent ..) (Core.not_establishes fun _ => by simp)
    | subscribed k other result => exact h.tenure_subscribed hd rfl
    | unsubscribed k other result => exact h.tenure_unsubscribed hd rfl
    | _ => cases hp
  | @once a t ha performs before after =>
    have hplain := performs.isPlain
    have hack : ¬ c.Establishes topic x := Core.not_establishes_of_isPlain hplain
    have hrows : t.core.subscriptions = c.subscriptions := congrArg Load.subscriptions before.load
    obtain ⟨m, m', hcontrol, hact, -⟩ := hhandles.performs performs
    rw [after.tenure, ← before.tenure]
    cases a with
    | remakeSubscriptions =>
      simp only [Marks.act, Option.ite_none_right_eq_some] at hact
      have hphase := hhandles.phase_performs performs
      obtain ⟨trigger, next, _, _, ht, hn, -⟩ := id performs
      rw [hhandles.phase_of_transition ht hn, Phase.next_of_remakeSubscriptions hn] at hphase
      refine .of_eq (tenure_remake (hcontrol.connection_of_connected hact.1.1) ?_) hack
      simp [hphase]
    | breakConnection => exact .of_eq (tenure_breakConnection t) hack
    | cleanup => exact .of_cleanup hplain (hrows ▸ h.tracking.sorted)
    | replayPendingWork =>
      exact .of_grows (grows_replay topic (t.update fun c => { c with pendingWork := [] }) _) hack
    | _ => cases ha
  | @twice t u performs performs' before middle after =>
    have hrows : t.core.subscriptions = c.subscriptions := congrArg Load.subscriptions before.load
    have hmiddle : u.core.subscriptions = c.subscriptions.interrupt := by
      have hrows' : u.core.subscriptions = t.breakConnection.core.subscriptions :=
        congrArg Load.subscriptions middle.load
      rw [hrows', core_breakConnection, hrows]
    have hsorted : u.core.subscriptions.Sorted := by
      rw [hmiddle]
      exact h.tracking.sorted.map fun _ => rfl
    have hsame : u.tenure topic = (begin c).tenure topic := by
      rw [middle.tenure, tenure_breakConnection, before.tenure]
    rw [after.tenure, ← hsame]
    exact .of_cleanup performs.isPlain hsorted

end Handle

end Sound

end PubSub
