import PubSub.Proofs.Attempts
import PubSub.Proofs.Endings
import PubSub.Proofs.Lines

/-! # What settles a promise

A subscribe succeeds with the answer of the server that establishes its row, and
an unsubscribe with the answer that ends its row. Otherwise work fails with the
answer of the server, or because the session ends, or the client turns it down
by itself: there is a row for the topic already, or there is none.
-/

namespace PubSub

open Turn

/-- The turn of the signal comes to this moment, and what is left of it is to do what has waited in
the row. -/
def Core.ComesTo (c : Core) (x : Signal) (row : Subscription) (t : Turn) : Prop :=
  c.subscriptions.find? row.topic = some row ∧ c.handle x = t.replay row.pending

/-- The topic has a row that the server has acknowledged, with what the subscribe asks for. -/
def Core.Established (c : Core) (r : SubscribeRequest) : Prop :=
  ∃ row, c.subscriptions.find? r.params.topic = some row ∧ row.state = .established ∧
    row.params = r.params ∧ row.listener = r.listener

/-- What the client answers to work by itself, if it does so at this moment of a turn. -/
inductive Turn.TurnsDown (t : Turn) : Work → Outcome → Prop
  | stopped {w : Work} (policy : t.core.phase.view.work = .reject) :
    t.TurnsDown w (.error .clientStopped)
  | duplicate {r : SubscribeRequest} {row : Subscription}
    (policy : t.core.phase.view.work = .accept)
    (found : t.core.subscriptions.find? r.params.topic = some row) (idle : row.isIdle) :
    t.TurnsDown (.subscribe r) (.error (.alreadySubscribed r.params.topic.address))
  | unknown {r : UnsubscribeRequest} (policy : t.core.phase.view.work = .accept)
    (absent : t.core.subscriptions.find? r.topic = none) :
    t.TurnsDown (.unsubscribe r) (.error (.notSubscribed r.topic.address))

namespace Core

def Subscribes (c : Core) (x : Signal) (r : SubscribeRequest) : Prop :=
  ∃ k row t, x = .subscribed k r.params.topic (.ok ()) ∧ c.connection = some k ∧
    row.params = r.params ∧ c.ComesTo x row t ∧ .settle r.promise (.ok ()) ∈ t.effects ∧
    t.core.Established r

def Unsubscribes (c : Core) (x : Signal) (r : UnsubscribeRequest) : Prop :=
  ∃ k row t, x = .unsubscribed k r.topic (.ok ()) ∧ c.connection = some k ∧ row.topic = r.topic ∧
    c.ComesTo x row t ∧ .settle r.promise (.ok ()) ∈ t.effects ∧
    t.core.subscriptions.find? r.topic = none

/-- The row of the topic is established again, and otherwise it stays as it was. What has waited in
it is done after that. -/
def Restores (c : Core) (x : Signal) (topic : Topic) : Prop :=
  ∃ row t, row.topic = topic ∧ c.ComesTo x row t ∧ t.core.subscriptions.find? topic =
    some { row with state := .established, unsubscribing := none, pending := [] }

def Refuses (c : Core) (x : Signal) (e : ClientError) : Work → Prop
  | .send _ => False
  | .subscribe r => ∃ k, c.connection = some k ∧ x = .subscribed k r.params.topic (.error e)
  | .unsubscribe r => ∃ k, c.connection = some k ∧ x = .unsubscribed k r.topic (.error e)

/-- How the turn of a signal comes to settle the promise of work. -/
inductive Concludes (c : Core) (x : Signal) : Work → Outcome → Prop
  | subscribed {r : SubscribeRequest} (h : c.Subscribes x r) : c.Concludes x (.subscribe r) (.ok ())
  | unsubscribed {r : UnsubscribeRequest} (h : c.Unsubscribes x r) :
    c.Concludes x (.unsubscribe r) (.ok ())
  | refused {w : Work} {e : ClientError} (h : c.Refuses x e w) : c.Concludes x w (.error e)
  | turnedDown {w : Work} {t : Turn} {result : Outcome} (does : c.Does x w t)
    (h : t.TurnsDown w result) : c.Concludes x w result
  /-- The session is cleaned up. -/
  | ended {w : Work} {t : Turn} (performs : c.Performs x .cleanup t) :
    c.Concludes x w (.error .clientStopped)

end Core

namespace Turn

variable {t : Turn} {w : Work} {p : PromiseId} {result : Outcome}

theorem settle_onWork (h : .settle p result ∈ (t.onWork w).effects) :
    .settle p result ∈ t.effects ∨ w.promise = p ∧ t.TurnsDown w result := by
  unfold onWork at h
  cases hw : t.core.phase.view.work with
  | reject =>
    simp only [hw, effects_reject, List.mem_append, List.mem_singleton] at h
    refine h.imp id fun h => ?_
    cases w with
    | send r => cases h
    | subscribe r | unsubscribe r =>
      cases h
      exact ⟨rfl, .stopped hw⟩
  | queue =>
    rw [hw] at h
    exact .inl h
  | accept =>
    simp only [hw, execute] at h
    split at h
    · exact .inl h
    · cases w with
      | send r => exact .inl (by simpa using h)
      | subscribe r =>
        simp only [executeSubscribe] at h
        split at h
        · exact .inl (by simpa using h)
        · next row hf =>
          split at h
          · next hidle =>
            rw [effects_settle, List.mem_append, List.mem_singleton] at h
            refine h.imp id fun h => ?_
            cases h
            exact ⟨rfl, .duplicate hw hf hidle⟩
          · exact .inl h
      | unsubscribe r =>
        simp only [executeUnsubscribe] at h
        split at h
        · next hf =>
          rw [effects_settle, List.mem_append, List.mem_singleton] at h
          refine h.imp id fun h => ?_
          cases h
          exact ⟨rfl, .unknown hw hf⟩
        · split at h
          · exact .inl (by simpa using h)
          · exact .inl h

theorem settle_replay {ws : List Work} (h : .settle p result ∈ (t.replay ws).effects) :
    .settle p result ∈ t.effects ∨ ∃ before w after, ws = before ++ w :: after ∧
      w.promise = p ∧ (t.replay before).TurnsDown w result := by
  induction ws generalizing t with
  | nil => exact .inl h
  | cons w ws ih =>
    rcases ih (t := t.onWork w) h with h | ⟨before, v, after, rfl, hp, hv⟩
    · exact (settle_onWork h).imp id fun ⟨hp, hw⟩ => ⟨[], w, ws, rfl, hp, hw⟩
    · exact .inr ⟨w :: before, v, after, rfl, hp, hv⟩

theorem settle_settleAll {ps : List PromiseId} {outcome : Outcome}
    (h : .settle p result ∈ (t.settleAll ps outcome).effects) :
    .settle p result ∈ t.effects ∨ p ∈ ps ∧ result = outcome := by
  simp only [effects_settleAll, List.mem_append, List.mem_map, Effect.settle.injEq] at h
  refine h.imp id ?_
  rintro ⟨q, hq, rfl, rfl⟩
  exact ⟨hq, rfl⟩

theorem settle_remakeSettled (h : .settle p result ∈ t.remakeSettled.effects) :
    .settle p result ∈ t.effects := by
  rw [effects_remakeSettled, List.mem_append] at h
  refine h.resolve_right fun h => ?_
  split at h <;> simp at h

theorem established_putRow (t : Turn) {row : Subscription} {r : SubscribeRequest}
    (hs : row.state = .established) (hp : r.params = row.params)
    (hl : r.listener = row.listener) : (t.putRow row).core.Established r :=
  ⟨row, find?_putRow t row (congrArg SubscribeParams.topic hp.symm), hs, hp.symm, hl.symm⟩

/-- A client that takes work turns a subscribe down when there is an idle row already. It changes
no row then and asks for nothing. -/
theorem onWork_subscribe_eq_settle_iff {r : SubscribeRequest}
    (hw : t.core.phase.view.work = .accept) (hk : t.core.connection.isSome) :
    t.onWork (.subscribe r) =
        t.settle (.error (.alreadySubscribed r.params.topic.address)) r.promise ↔
      ∃ row, t.core.subscriptions.find? r.params.topic = some row ∧ row.isIdle := by
  obtain ⟨k, hk⟩ := Option.isSome_iff_exists.mp hk
  have hwork : t.onWork (.subscribe r) = t.executeSubscribe k r := by
    simp only [onWork, hw, execute, hk]
  rw [hwork]
  unfold executeSubscribe
  constructor
  · intro h
    have heffects := congrArg Turn.effects h
    split at heffects
    · simp at heffects
    · next row hf =>
      refine ⟨row, hf, ?_⟩
      by_contra hidle
      rw [if_neg hidle] at heffects
      simp at heffects
  · rintro ⟨row, hf, hidle⟩
    simp only [hf, hidle, if_true]

theorem onWork_unsubscribe_eq_settle_iff {r : UnsubscribeRequest}
    (hw : t.core.phase.view.work = .accept) (hk : t.core.connection.isSome) :
    t.onWork (.unsubscribe r) =
        t.settle (.error (.notSubscribed r.topic.address)) r.promise ↔
      t.core.subscriptions.find? r.topic = none := by
  obtain ⟨k, hk⟩ := Option.isSome_iff_exists.mp hk
  have hwork : t.onWork (.unsubscribe r) = t.executeUnsubscribe k r := by
    simp only [onWork, hw, execute, hk]
  rw [hwork]
  unfold executeUnsubscribe
  constructor
  · intro h
    have heffects := congrArg Turn.effects h
    split at heffects
    · assumption
    · split at heffects <;> simp at heffects
  · intro hf
    simp only [hf]

end Turn

theorem Subscription.StemsFrom.promises {known : Work → Prop} {row : Subscription}
    (h : row.StemsFrom known) : ∀ p ∈ row.promises, ∃ w, known w ∧ w.promise = p := by
  intro p hp
  rcases List.mem_append.mp hp with hp | hp
  · obtain ⟨w, -, hpromise, hw⟩ := h.underWay p hp
    exact ⟨w, hw, hpromise⟩
  · obtain ⟨w, hw, rfl⟩ := List.mem_map.mp hp
    exact ⟨w, (h.pending w hw).2, rfl⟩

namespace Phase

variable {p next : Phase} {trigger : Trigger} {before after : List Action}

theorem eq_nil_of_replayPendingWork
    (h : p.transition trigger = some ⟨next, before ++ .replayPendingWork :: after⟩) :
    after = [] := by
  have hall : ∀ (p : Phase) (trigger : Trigger), ∀ n ∈ p.transition trigger,
      .replayPendingWork ∉ n.actions.dropLast := by decide
  have hlast := hall _ _ _ h
  rw [List.dropLast_append_of_ne_nil (by simp)] at hlast
  cases after with
  | nil => rfl
  | cons a after => simp at hlast

end Phase

theorem Course.mem_pendingStops_of_foldl_act {c : Course} {actions : List Action} {p : PromiseId}
    (hp : p ∈ (actions.foldl act c).pendingStops) : p ∈ c.pendingStops := by
  induction actions generalizing c with
  | nil => exact hp
  | cons a actions ih =>
    have hp := ih hp
    by_cases hs : a = .succeedPendingStops
    · subst hs
      cases hp
    · rwa [pendingStops_act hs] at hp

namespace Turn

variable {m m' : Marks} {env : Awaited → Nat} {t : Turn} {known : Work → Prop} {p : PromiseId}

theorem stemsFrom_performAll (hc : Control m t.core.course (t.due env)) {actions : List Action}
    (ha : actions.foldlM Marks.act m = some m') (hs : t.core.load.StemsFrom known)
    (hf : .failPendingStarts ∈ actions → t.core.phase ≠ .started) (closed : Turn → Turn) :
    (actions.foldl (perform closed) t).core.load.StemsFrom known := by
  induction actions generalizing m t with
  | nil => exact hs
  | cons a actions ih =>
    obtain ⟨m₁, ha₁, ha⟩ := Option.bind_eq_some_iff.mp ha
    refine ih (hc.perform ha₁ closed) ha ?_ fun hm => ?_
    · cases hp : a.isPlain with
      | true =>
        have hleaves := leaves_perform hc ha₁ hp (fun he => hf (he ▸ List.mem_cons_self ..)) closed
        exact hleaves.load ▸ hs
      | false => exact hs.perform hp closed
    · rw [hc.phase_perform ha₁]
      exact hf (List.mem_cons_of_mem _ hm)

theorem mem_pendingStarts_performAll (hc : Control m t.core.course (t.due env))
    {actions : List Action} (ha : actions.foldlM Marks.act m = some m') (closed : Turn → Turn)
    (hp : p ∈ (actions.foldl (perform closed) t).core.pendingStarts) :
    p ∈ t.core.pendingStarts := by
  obtain ⟨-, -, hkept | ⟨hnone, -⟩⟩ := KeepsStarts.performAll hc ha closed
  · exact hkept ▸ hp
  · simp [hnone] at hp

theorem mem_pendingStops_performAll (hc : Control m t.core.course (t.due env))
    {actions : List Action} (ha : actions.foldlM Marks.act m = some m') (closed : Turn → Turn)
    (hp : p ∈ (actions.foldl (perform closed) t).core.pendingStops) : p ∈ t.core.pendingStops := by
  have hstops : (actions.foldl (perform closed) t).core.pendingStops =
      (actions.foldl Course.act t.core.course).pendingStops :=
    congrArg Course.pendingStops (hc.course_performAll ha closed)
  rw [hstops] at hp
  exact Course.mem_pendingStops_of_foldl_act hp

end Turn

namespace Handles

variable {c : Core} {env : Awaited → Nat} {x : Signal} {t : Turn} {a : Action} {p : PromiseId}
  {known : Work → Prop}

/-- What is in hand when an action is performed was asked for, and the starts and stops that wait
then have waited or come with the signal. -/
theorem holds_performs (h : Handles c env x) (hp : c.Performs x a t)
    (hknown : c.load.StemsFrom known) : t.core.load.StemsFrom known ∧
      (∀ p ∈ t.core.pendingStarts, p ∈ c.pendingStarts ++ x.starts) ∧
      ∀ p ∈ t.core.pendingStops, p ∈ c.pendingStops ++ x.stops := by
  obtain ⟨trigger, next, before, after, ht, hn, rfl⟩ := hp
  obtain ⟨m, m', -, hc, ha⟩ := h.control_of_transition ht hn
  rw [List.foldlM_append] at ha
  obtain ⟨m₁, hbefore, -⟩ := Option.bind_eq_some_iff.mp ha
  refine ⟨stemsFrom_performAll hc hbefore ?_ (fun hm => ?_) fireClosed, fun p hp => ?_,
    fun p hp => ?_⟩
  · have hload : (c.entering x next).core.load = c.load := x.load_prepare c
    exact hload ▸ hknown
  · exact Phase.next_of_failPendingStarts hn (List.mem_append_left _ hm)
  · rw [← x.pendingStarts_prepare]
    exact mem_pendingStarts_performAll hc hbefore fireClosed hp
  · rw [← x.pendingStops_prepare]
    exact mem_pendingStops_performAll hc hbefore fireClosed hp

theorem mem_pendingStops (h : Handles c env x) (hp : p ∈ (c.handle x).core.pendingStops) :
    p ∈ c.pendingStops ++ x.stops := by
  cases h with
  | steady hx stays =>
    have hkept : (c.handle x).core.pendingStops = c.pendingStops :=
      congrArg Course.pendingStops stays.course
    exact List.mem_append_left _ (hkept ▸ hp)
  | passed hx hnone _ f hf heq =>
    rw [heq, core_update, core_begin] at hp
    rcases hf with rfl | ⟨rfl, -⟩
    · exact List.mem_append_left _ hp
    · exact x.pendingStops_prepare c ▸ hp
  | @fires trigger next actions m m' hx ht hn hm hc ha hle heq =>
    rw [heq] at hp
    exact x.pendingStops_prepare c ▸ mem_pendingStops_performAll hc ha fireClosed hp

/-- The kept work is done last of all in a turn. -/
theorem handle_of_replayPendingWork (hp : c.Performs x .replayPendingWork t) :
    c.handle x = t.replayPending := by
  obtain ⟨trigger, next, before, after, ht, hn, rfl⟩ := hp
  obtain rfl := Phase.eq_nil_of_replayPendingWork hn
  rw [Core.handle_of_transition ht hn, List.foldl_append]
  rfl

end Handles

namespace Core

variable {c : Core} {x : Signal} {t : Turn} {known : Work → Prop} {p : PromiseId}
  {result : Outcome}

theorem concludes_of_replay {ws : List Work} (ht : c.handle x = t.replay ws)
    (hws : ∀ w ∈ ws, known w) (h : .settle p result ∈ (t.replay ws).effects) :
    .settle p result ∈ t.effects ∨ ∃ w, known w ∧ w.promise = p ∧ c.Concludes x w result := by
  refine (settle_replay h).imp id ?_
  rintro ⟨before, w, after, rfl, hp, hw⟩
  refine ⟨w, hws w (by simp), hp, .turnedDown ⟨after, ?_⟩ hw⟩
  rw [ht, Turn.replay, List.foldl_append]
  rfl

section Subscribed

variable {k : ConnectionId} {row : Subscription} (hk : c.connection = some k)
  (hstems : row.StemsFrom known) (hp : p ∈ row.subscribing.toList ++ row.awaiting)
include hk hstems hp

/-- The subscribes of a row succeed when the row is established with its parameters. -/
theorem concludes_acknowledged (ht : c.ComesTo (.subscribed k row.topic (.ok ())) row t)
    (hrow : ∀ r : SubscribeRequest, r.params = row.params → r.listener = row.listener →
      t.core.Established r) (he : .settle p (.ok ()) ∈ t.effects) :
    ∃ w, known w ∧ w.promise = p ∧ c.Concludes (.subscribed k row.topic (.ok ())) w (.ok ()) := by
  obtain ⟨r, hparams, hlistener, rfl, hr⟩ := hstems.subscribing p hp
  have htopic : row.topic = r.params.topic := congrArg SubscribeParams.topic hparams.symm
  exact ⟨.subscribe r, hr, rfl, .subscribed ⟨k, row, t, by rw [htopic], hk, hparams.symm, ht, he,
    hrow r hparams hlistener⟩⟩

theorem concludes_refused (e : ClientError) : ∃ w, known w ∧ w.promise = p ∧
    c.Concludes (.subscribed k row.topic (.error e)) w (.error e) := by
  obtain ⟨r, hparams, -, rfl, hr⟩ := hstems.subscribing p hp
  have htopic : row.topic = r.params.topic := congrArg SubscribeParams.topic hparams.symm
  exact ⟨.subscribe r, hr, rfl, .refused ⟨k, hk, by rw [htopic]⟩⟩

end Subscribed

end Core

theorem Load.StemsFrom.settle_cleanup {t : Turn} {known : Work → Prop} {p : PromiseId}
    {result : Outcome} (h : t.core.load.StemsFrom known)
    (he : .settle p result ∈ t.cleanup.effects) : .settle p result ∈ t.effects ∨
      result = .error .clientStopped ∧ ∃ w, known w ∧ w.promise = p := by
  rw [effects_cleanup] at he
  simp only [List.append_assoc, List.mem_append, List.mem_flatMap, Subscription.ending,
    List.mem_map, List.mem_singleton, Effect.settle.injEq, reduceCtorEq, OutstandingSend.ending,
    Option.mem_toList, or_false, false_or, and_false, exists_false] at he
  rcases he with he | ⟨row, hrow, ⟨q, hq, rfl, rfl⟩ | hnotify⟩ | ⟨w, hw, heq⟩
  · exact .inl he
  · exact .inr ⟨rfl, (h.rows row hrow).promises q hq⟩
  · split at hnotify <;> simp at hnotify
  · refine .inr ⟨?_, w, h.kept w hw, ?_⟩ <;> cases w <;> cases heq <;> rfl

namespace Sound

variable {lost : ConnectionId → Topic → Prop} {c : Core} {d env : Awaited → Nat} {x : Signal}
  {known : Work → Prop} {p : PromiseId} {result : Outcome}

/-- A refused unsubscribe leaves its row as it was before. -/
theorem restores_unsubscribed (h : Sound lost c d) {k : ConnectionId} {topic : Topic}
    {e : ClientError}
    (hd : ∀ a, d a = env a + (Signal.unsubscribed k topic (.error e)).awaited.count a)
    (hk : c.connection = some k) (he : ¬ e.isRetryable) (hs : ¬ c.phase.isStopping) :
    c.Restores (.unsubscribed k topic (.error e)) topic := by
  cases h.unsubscribed_cases hd with
  | ignored late _ =>
    rcases late with hne | hretryable | hstopping
    · exact absurd hk hne
    · exact absurd hretryable he
    · exact absurd hstopping hs
  | @detached row _ hf _ _ _ heq =>
    obtain ⟨-, rfl⟩ := Subscriptions.find?_eq_some hf
    refine ⟨row, _, rfl, ⟨hf, heq⟩, ?_⟩
    rw [core_settleAll]
    exact find?_putRow (begin c) _ rfl

section Handle

variable (h : Sound lost c d) (hd : ∀ a, d a = env a + x.awaited.count a)
  (hknown : c.load.StemsFrom known)
include h hd hknown

theorem settle_subscribed {k : ConnectionId} {topic : Topic} {answer : Outcome}
    (hx : x = .subscribed k topic answer) (he : .settle p result ∈ (c.handle x).effects) :
    ∃ w, known w ∧ w.promise = p ∧ c.Concludes x w result := by
  subst hx
  cases h.subscribed_cases hd with
  | ignored _ heq =>
    rw [heq] at he
    cases he
  | @stopping row _ _ _ heq =>
    rw [heq, onSubscribedStopping] at he
    split at he
    · cases settle_remakeSettled he
    · cases he
  | @remade row hk hf hrow hstop hfinal heq =>
    obtain ⟨hmem, rfl⟩ := Subscriptions.find?_eq_some hf
    have hstems := hknown.rows row hmem
    rw [heq] at he
    cases answer with
    | ok u =>
      obtain ⟨hp, rfl⟩ := (settle_settleAll (settle_remakeSettled he)).resolve_left (by simp)
      have hcomes : c.ComesTo (.subscribed k row.topic (.ok ())) row
          ((begin c).onRemade row (.ok ())) := ⟨hf, by rw [hrow.pending]; exact heq⟩
      refine Core.concludes_acknowledged hk hstems (List.mem_append_right _ hp) hcomes ?_ he
      intro r hparams hlistener
      simp only [onRemade, core_remakeSettled, core_settleAll]
      exact established_putRow (begin c) rfl hparams hlistener
    | error e =>
      have he := settle_remakeSettled he
      rw [effects_notify, List.mem_append] at he
      obtain ⟨hp, rfl⟩ := (settle_settleAll (he.resolve_right (by simp))).resolve_left (by simp)
      -- The renewal holds nothing but the subscribes that were interrupted.
      simp only [Subscription.promises, hrow.subscribing, hrow.unsubscribing, hrow.pending,
        Option.toList_none, Option.map_none, List.map_nil, List.nil_append, List.append_nil] at hp
      exact Core.concludes_refused hk hstems (List.mem_append_right _ hp) e
  | @attached row hk hf hrow hstarted hfinal heq =>
    obtain ⟨hmem, rfl⟩ := Subscriptions.find?_eq_some hf
    have hstems := hknown.rows row hmem
    have hws : ∀ w ∈ row.pending, known w := fun w hw => (hstems.pending w hw).2
    rw [heq] at he
    cases answer with
    | ok u =>
      refine (Core.concludes_of_replay heq hws he).elim (fun he => ?_) id
      obtain ⟨hp, rfl⟩ := (settle_settleAll he).resolve_left (by simp)
      refine Core.concludes_acknowledged hk hstems (List.mem_append_left _ hp) ⟨hf, heq⟩ ?_ he
      intro r hparams hlistener
      rw [core_settleAll]
      exact established_putRow (begin c) rfl hparams hlistener
    | error e =>
      refine (Core.concludes_of_replay heq hws he).elim (fun he => ?_) id
      obtain ⟨hp, rfl⟩ := (settle_settleAll he).resolve_left (by simp)
      exact Core.concludes_refused hk hstems (List.mem_append_left _ hp) e

theorem settle_unsubscribed {k : ConnectionId} {topic : Topic} {answer : Outcome}
    (hx : x = .unsubscribed k topic answer) (he : .settle p result ∈ (c.handle x).effects) :
    ∃ w, known w ∧ w.promise = p ∧ c.Concludes x w result := by
  subst hx
  cases h.unsubscribed_cases hd with
  | ignored _ heq =>
    rw [heq] at he
    cases he
  | @detached row hk hf hrow hstarted hfinal heq =>
    obtain ⟨hmem, rfl⟩ := Subscriptions.find?_eq_some hf
    have hstems := hknown.rows row hmem
    have hws : ∀ w ∈ row.pending, known w := fun w hw => (hstems.pending w hw).2
    have hasked (hp : p ∈ (row.unsubscribing.map (·.promise)).toList) :
        ∃ r, r.topic = row.topic ∧ r.promise = p ∧ known (.unsubscribe r) := by
      obtain ⟨r, hr, rfl⟩ := Option.map_eq_some_iff.mp (Option.mem_toList.mp hp)
      obtain ⟨ht, hr⟩ := hstems.unsubscribing r hr
      exact ⟨r, ht, rfl, hr⟩
    rw [heq] at he
    cases answer with
    | ok u =>
      refine (Core.concludes_of_replay heq hws he).elim (fun he => ?_) id
      have hsettled := he
      rw [effects_notify, List.mem_append] at hsettled
      obtain ⟨hp, rfl⟩ :=
        (settle_settleAll (hsettled.resolve_right (by simp))).resolve_left (by simp)
      obtain ⟨r, ht, rfl, hr⟩ := hasked hp
      refine ⟨.unsubscribe r, hr, rfl,
        .unsubscribed ⟨k, row, _, by rw [ht], hk, ht.symm, ⟨hf, heq⟩, he, ?_⟩⟩
      rw [core_notify, core_settleAll, ht]
      exact find?_eraseRow ..
    | error e =>
      refine (Core.concludes_of_replay heq hws he).elim (fun he => ?_) id
      obtain ⟨hp, rfl⟩ := (settle_settleAll he).resolve_left (by simp)
      obtain ⟨r, ht, rfl, hr⟩ := hasked hp
      exact ⟨.unsubscribe r, hr, rfl, .refused ⟨k, hk, by rw [ht]⟩⟩

theorem settle_of_steady (hs : x.isSteady) (hx : ∀ w, x = .work w → known w)
    (he : .settle p result ∈ (c.handle x).effects) : (∃ id, x = .confirm id p) ∨
      ∃ w, known w ∧ w.promise = p ∧ c.Concludes x w result := by
  cases x with
  | work w =>
    obtain ⟨rfl, hw⟩ := (settle_onWork (t := begin c) he).resolve_left (by simp)
    exact .inr ⟨w, hx w rfl, rfl, .turnedDown ⟨[], rfl⟩ hw⟩
  | subscribed k topic answer => exact .inr (h.settle_subscribed hd hknown rfl he)
  | unsubscribed k topic answer => exact .inr (h.settle_unsubscribed hd hknown rfl he)
  | confirm id q =>
    rw [Core.effects_confirm] at he
    obtain rfl : p = q := by
      split at he
      · exact (Effect.settle.inj (List.mem_singleton.mp he)).1
      · split at he <;> simp_all
    exact .inl ⟨id, rfl⟩
  | sent k id answer =>
    simp only [Core.handle, Turn.handle, onSent] at he
    split at he
    · cases he
    · split_ifs at he <;> simp at he
  | delivered k m =>
    simp only [Core.handle, Turn.handle, onDelivered] at he
    split at he
    · split at he
      · cases he
      · split_ifs at he <;> simp at he
    · cases he
  | autoConfirm d =>
    simp only [Core.handle, Turn.handle, acknowledge] at he
    split at he <;> simp at he
  | _ => cases hs

/-- A promise that is settled in a turn is that of a start, a stop or a confirmation, or that of
work which is concluded. -/
theorem settle_handle (hown : .lookup ∈ x.awaited → env .resume = 0)
    (hx : ∀ w, x = .work w → known w) (he : .settle p result ∈ (c.handle x).effects) :
    p ∈ c.pendingStarts ++ x.starts ∨ p ∈ c.pendingStops ++ x.stops ∨
      (∃ id, x = .confirm id p) ∨ ∃ w, known w ∧ w.promise = p ∧ c.Concludes x w result := by
  have hhandles := h.handles hd hown
  rcases hhandles.mem_effects he with ⟨hs, -⟩ | ⟨state, hstate⟩ | ⟨a, t, hp, hi, hperform, hbefore⟩
  · exact .inr (.inr (h.settle_of_steady hd hknown hs hx he))
  · cases hstate
  · obtain ⟨hstems, hstarts, hstops⟩ := hhandles.holds_performs hp hknown
    cases a with
    | succeedPendingStarts | failPendingStarts =>
      rw [perform, effects_settleStarts, List.mem_append] at hperform
      obtain ⟨q, hq, heq⟩ := List.mem_map.mp (hperform.resolve_left hbefore)
      cases heq
      exact .inl (hstarts p hq)
    | succeedPendingStops =>
      rw [perform, effects_settleStops, List.mem_append] at hperform
      obtain ⟨q, hq, heq⟩ := List.mem_map.mp (hperform.resolve_left hbefore)
      cases heq
      exact .inr (.inl (hstops p hq))
    | cleanup =>
      obtain ⟨rfl, w, hw, hpromise⟩ := (hstems.settle_cleanup hperform).resolve_left hbefore
      exact .inr (.inr (.inr ⟨w, hw, hpromise, .ended hp⟩))
    | replayPendingWork =>
      have hturn := Handles.handle_of_replayPendingWork hp
      rw [perform, replayPending] at hperform
      have hconcludes := Core.concludes_of_replay hturn hstems.kept hperform
      exact .inr (.inr (.inr (hconcludes.resolve_left hbefore)))
    | _ => cases hi

end Handle

end Sound

end PubSub
