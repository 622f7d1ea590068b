import PubSub.Proofs.History
import PubSub.Proofs.Load

/-! # Where work comes from

Whatever a session has in hand was asked for by work that it has handled. What
waits in a row is on the topic of the row, and so is the unsubscribe that is
under way for it. The subscribe that is under way is the one that the row has
its parameters and its listener from.
-/

namespace PubSub

open Turn

variable {known known' : Work → Prop}

/-- All that the row holds was asked for by work on its topic. -/
structure Subscription.StemsFrom (known : Work → Prop) (row : Subscription) : Prop where
  pending : ∀ w ∈ row.pending, w.isOn row.topic ∧ known w
  unsubscribing : ∀ r ∈ row.unsubscribing, r.topic = row.topic ∧ known (.unsubscribe r)
  subscribing : ∀ p ∈ row.subscribing.toList ++ row.awaiting,
    ∃ r, r.params = row.params ∧ r.listener = row.listener ∧ r.promise = p ∧ known (.subscribe r)

namespace Subscription.StemsFrom

variable {row : Subscription}

theorem mono (h : row.StemsFrom known) (hk : ∀ w, known w → known' w) : row.StemsFrom known' where
  pending := fun w hw => (h.pending w hw).imp id (hk w)
  unsubscribing := fun r hr => (h.unsubscribing r hr).imp id (hk _)
  subscribing := by
    intro p hp
    obtain ⟨r, hparams, hlistener, hr, hw⟩ := h.subscribing p hp
    exact ⟨r, hparams, hlistener, hr, hk _ hw⟩

theorem new {r : SubscribeRequest} (hr : known (.subscribe r)) : (new r).StemsFrom known where
  pending := nofun
  unsubscribing := nofun
  subscribing := by
    intro p hp
    obtain rfl := List.mem_singleton.mp hp
    exact ⟨r, rfl, rfl, rfl, hr⟩

theorem of_sublists {row' : Subscription} (h : row.StemsFrom known) (hp : row'.params = row.params)
    (hl : row'.listener = row.listener) (hw : ∀ w ∈ row'.pending, w ∈ row.pending)
    (hu : ∀ r ∈ row'.unsubscribing, r ∈ row.unsubscribing)
    (hs : ∀ p ∈ row'.subscribing.toList ++ row'.awaiting,
      p ∈ row.subscribing.toList ++ row.awaiting) :
    row'.StemsFrom known where
  pending := fun w hm => by
    rw [topic, hp]
    exact h.pending w (hw w hm)
  unsubscribing := fun r hr => by
    rw [topic, hp]
    exact h.unsubscribing r (hu r hr)
  subscribing := fun p hm => by
    rw [hp, hl]
    exact h.subscribing p (hs p hm)

theorem append (h : row.StemsFrom known) {w : Work} (ht : w.isOn row.topic) (hw : known w) :
    StemsFrom known { row with pending := row.pending ++ [w] } where
  pending := by
    intro v hv
    rcases List.mem_append.mp hv with hv | hv
    · exact h.pending v hv
    · obtain rfl := List.mem_singleton.mp hv
      exact ⟨ht, hw⟩
  unsubscribing := h.unsubscribing
  subscribing := h.subscribing

theorem detach (h : row.StemsFrom known) {r : UnsubscribeRequest} (ht : r.topic = row.topic)
    (hr : known (.unsubscribe r)) :
    StemsFrom known { row with state := .detaching, unsubscribing := some r } where
  pending := h.pending
  unsubscribing := by
    rintro _ ⟨⟩
    exact ⟨ht, hr⟩
  subscribing := h.subscribing

theorem interrupt (h : row.StemsFrom known) : row.interrupt.StemsFrom known := by
  refine h.of_sublists rfl rfl nofun nofun fun p hp => ?_
  simp only [Subscription.interrupt, Option.toList_none, List.nil_append, List.mem_append] at hp ⊢
  exact hp.symm

theorem remake (h : row.StemsFrom known) : row.remake.StemsFrom known := by
  unfold Subscription.remake
  split
  · exact h.of_sublists rfl rfl (fun _ => id) (fun _ => id) fun _ => id
  · exact h

theorem recovered (h : row.StemsFrom known) :
    ∀ w ∈ row.recovered, w.isOn row.topic ∧ known w := by
  intro w hw
  simp only [Subscription.recovered, List.mem_append, List.mem_map, Option.mem_toList] at hw
  rcases hw with ⟨r, hr, rfl⟩ | hw
  · obtain ⟨ht, hk⟩ := h.unsubscribing r hr
    exact ⟨by simpa [Work.isOn] using ht, hk⟩
  · exact h.pending w hw

end Subscription.StemsFrom

structure Load.StemsFrom (known : Work → Prop) (l : Load) : Prop where
  kept : ∀ w ∈ l.pendingWork, known w
  outstanding : ∀ send ∈ l.outstanding, known (.send send.request)
  rows : ∀ row ∈ l.subscriptions, row.StemsFrom known

namespace Load.StemsFrom

variable {t t' : Turn} {w : Work} {row : Subscription}

theorem mono {l : Load} (h : l.StemsFrom known) (hk : ∀ w, known w → known' w) :
    l.StemsFrom known' where
  kept := fun w hw => hk w (h.kept w hw)
  outstanding := fun send hs => hk _ (h.outstanding send hs)
  rows := fun row hrow => (h.rows row hrow).mono hk

theorem keep (h : t.core.load.StemsFrom known) (hw : known w) :
    (t.keep w).core.load.StemsFrom known where
  kept := by
    intro v hv
    rcases List.mem_append.mp hv with hv | hv
    · exact h.kept v hv
    · obtain rfl := List.mem_singleton.mp hv
      exact hw
  outstanding := h.outstanding
  rows := h.rows

theorem putRow (h : t.core.load.StemsFrom known) (hrow : row.StemsFrom known) :
    (t.putRow row).core.load.StemsFrom known where
  kept := h.kept
  outstanding := h.outstanding
  rows := by
    intro r hr
    rcases Subscriptions.mem_put hr with rfl | hr
    · exact hrow
    · exact h.rows r hr

theorem eraseRow (h : t.core.load.StemsFrom known) (topic : Topic) :
    (t.eraseRow topic).core.load.StemsFrom known where
  kept := h.kept
  outstanding := h.outstanding
  rows := fun r hr => h.rows r (Subscriptions.mem_erase.mp hr).1

theorem executeSend (h : t.core.load.StemsFrom known) {r : SendRequest} (hr : known (.send r))
    (k : ConnectionId) : (t.executeSend k r).core.load.StemsFrom known where
  kept := h.kept
  outstanding := by
    intro send hs
    rcases List.mem_append.mp hs with hs | hs
    · exact h.outstanding send hs
    · obtain rfl := List.mem_singleton.mp hs
      exact hr
  rows := h.rows

theorem executeSubscribe (h : t.core.load.StemsFrom known) {r : SubscribeRequest}
    (hr : known (.subscribe r)) (k : ConnectionId) :
    (t.executeSubscribe k r).core.load.StemsFrom known := by
  unfold Turn.executeSubscribe
  split
  · exact h.putRow (.new hr)
  · next row hf =>
    obtain ⟨hrow, ht⟩ := Subscriptions.find?_eq_some hf
    split
    · exact h
    · exact h.putRow ((h.rows row hrow).append (by simp [Work.isOn, ht]) hr)

theorem executeUnsubscribe (h : t.core.load.StemsFrom known) {r : UnsubscribeRequest}
    (hr : known (.unsubscribe r)) (k : ConnectionId) :
    (t.executeUnsubscribe k r).core.load.StemsFrom known := by
  unfold Turn.executeUnsubscribe
  split
  · exact h
  · next row hf =>
    obtain ⟨hrow, ht⟩ := Subscriptions.find?_eq_some hf
    split
    · exact h.putRow ((h.rows row hrow).detach ht.symm hr)
    · exact h.putRow ((h.rows row hrow).append (by simp [Work.isOn, ht]) hr)

theorem onWork (h : t.core.load.StemsFrom known) (hw : known w) :
    (t.onWork w).core.load.StemsFrom known := by
  unfold Turn.onWork
  split
  · rw [core_reject]
    exact h
  · exact h.keep hw
  · unfold execute
    split
    · exact h.keep hw
    · cases w with
      | send r => exact h.executeSend hw _
      | subscribe r => exact h.executeSubscribe hw _
      | unsubscribe r => exact h.executeUnsubscribe hw _

theorem replay (h : t.core.load.StemsFrom known) {ws : List Work} (hws : ∀ w ∈ ws, known w) :
    (t.replay ws).core.load.StemsFrom known := by
  induction ws generalizing t with
  | nil => exact h
  | cons w ws ih =>
    exact ih (h.onWork (hws w (List.mem_cons_self ..))) fun v hv =>
      hws v (List.mem_cons_of_mem _ hv)

theorem replayPending (h : t.core.load.StemsFrom known) :
    t.replayPending.core.load.StemsFrom known :=
  replay (t := t.update fun c => { c with pendingWork := [] })
    ⟨List.forall_mem_nil _, h.outstanding, h.rows⟩ h.kept

theorem breakConnection (h : t.core.load.StemsFrom known) :
    t.breakConnection.core.load.StemsFrom known := by
  rw [core_breakConnection]
  refine ⟨fun w hw => ?_, List.forall_mem_nil _, fun row hrow => ?_⟩
  · simp only [Core.load, Subscriptions.recovered, List.mem_append, List.mem_map,
      List.mem_flatMap] at hw
    rcases hw with (⟨send, hs, rfl⟩ | ⟨row, hrow, hw⟩) | hw
    · exact h.outstanding send (List.mem_of_mem_filter hs)
    · exact ((h.rows row hrow).recovered w hw).2
    · exact h.kept w hw
  · obtain ⟨old, hold, rfl⟩ := List.mem_map.mp hrow
    exact (h.rows old hold).interrupt

theorem remake (h : t.core.load.StemsFrom known) : t.remake.core.load.StemsFrom known := by
  cases hk : t.core.connection with
  | none =>
    simp only [Turn.remake, hk]
    exact h
  | some k =>
    rw [(remake_of_connection t hk).1]
    refine ⟨h.kept, h.outstanding, fun row hrow => ?_⟩
    obtain ⟨old, hold, rfl⟩ := List.mem_map.mp hrow
    exact (h.rows old hold).remake

theorem cleanup (t : Turn) : t.cleanup.core.load.StemsFrom known := by
  rw [core_cleanup]
  exact ⟨List.forall_mem_nil _, List.forall_mem_nil _, List.forall_mem_nil _⟩

theorem perform (h : t.core.load.StemsFrom known) {a : Action} (ha : a.isPlain = false)
    (closed : Turn → Turn) : (t.perform closed a).core.load.StemsFrom known := by
  cases a with
  | remakeSubscriptions => exact h.remake
  | breakConnection => exact h.breakConnection
  | cleanup => exact cleanup t
  | replayPendingWork => exact h.replayPending
  | _ => cases ha

section Answers

variable (h : t.core.load.StemsFrom known)
include h

theorem onSent (k : ConnectionId) (id : Nat) (result : Outcome) :
    (t.onSent k id result).core.load.StemsFrom known := by
  unfold Turn.onSent
  split
  · exact h
  · split_ifs
    · exact h
    · exact h
    · exact ⟨h.kept, fun send hs => h.outstanding send (List.mem_of_mem_filter hs), h.rows⟩

theorem remakeSettled : t.remakeSettled.core.load.StemsFrom known := by
  rw [core_remakeSettled]
  exact ⟨h.kept, h.outstanding, h.rows⟩

theorem settleAll (ps : List PromiseId) (result : Outcome) :
    (t.settleAll ps result).core.load.StemsFrom known := by
  rw [core_settleAll]
  exact h

theorem onSubscribed (k : ConnectionId) (topic : Topic) (result : Outcome) :
    (t.onSubscribed k topic result).core.load.StemsFrom known := by
  unfold Turn.onSubscribed
  split
  · split
    · exact h
    · next row hf =>
      have hrow := h.rows row (Subscriptions.find?_eq_some hf).1
      split_ifs
      · exact h
      · unfold onSubscribedStopping
        split
        · refine remakeSettled (h.putRow ?_)
          exact hrow.of_sublists rfl rfl (fun _ => id) (fun _ => id) fun _ => id
        · exact h
      · unfold onRemade
        cases result with
        | ok =>
          refine ((h.putRow ?_).settleAll ..).remakeSettled
          refine hrow.of_sublists rfl rfl (fun _ => id) (fun _ => id) fun p hp => ?_
          exact List.mem_append_left _ (by simpa using hp)
        | error e =>
          exact remakeSettled (t := Turn.notify _ _) ((h.eraseRow row.topic).settleAll ..)
      · have hpending (w : Work) (hw : w ∈ row.pending) : known w := (hrow.pending w hw).2
        unfold onAttached
        cases result with
        | ok =>
          refine ((h.putRow ?_).settleAll ..).replay hpending
          exact hrow.of_sublists rfl rfl nofun (fun _ => id) fun p hp => List.mem_append_right _ hp
        | error e => exact ((h.eraseRow row.topic).settleAll ..).replay hpending
  · exact h

theorem onUnsubscribed (k : ConnectionId) (topic : Topic) (result : Outcome) :
    (t.onUnsubscribed k topic result).core.load.StemsFrom known := by
  unfold Turn.onUnsubscribed
  split
  · split
    · exact h
    · split
      · exact h
      · next row hf =>
        have hrow := h.rows row (Subscriptions.find?_eq_some hf).1
        have hpending (w : Work) (hw : w ∈ row.pending) : known w := (hrow.pending w hw).2
        unfold onDetached
        cases result with
        | ok => exact replay (t := Turn.notify _ _) ((h.eraseRow row.topic).settleAll ..) hpending
        | error e =>
          refine ((h.putRow ?_).settleAll ..).replay hpending
          exact hrow.of_sublists rfl rfl nofun nofun fun _ => id
  · exact h

end Answers

theorem handle {c : Core} {x : Signal} (h : c.load.StemsFrom known) (hl : Loads c x)
    (hx : ∀ w, x = .work w → known w) : (c.handle x).core.load.StemsFrom known := by
  cases hl with
  | leaves _ hl => exact hl.load ▸ h
  | steady hs hp =>
    cases x with
    | work w => exact onWork (t := begin c) h (hx w rfl)
    | sent k id result => exact onSent (t := begin c) h k id result
    | subscribed k topic result => exact onSubscribed (t := begin c) h k topic result
    | unsubscribed k topic result => exact onUnsubscribed (t := begin c) h k topic result
    | _ => cases hp
  | once ha _ before after =>
    rw [after.load]
    exact perform (before.load ▸ h) ha fireClosed
  | @twice t u _ _ before middle after =>
    rw [after.load]
    exact cleanup u

end Load.StemsFrom

def Handled {ℓ : Type} (past : List (Move ℓ)) (w : Work) : Prop := .take (.work w) ∈ past

theorem System.Coherent.stemsFrom {ℓ : Type} {past : List (Move ℓ)} {s s' : System ℓ}
    (hc : s.Coherent past) {known : Work → Prop} (h : s.client.core.load.StemsFrom known)
    {m : Move ℓ} (hs : s.step m = some s') (hm : ∀ w, m = .take (.work w) → known w) :
    s'.client.core.load.StemsFrom known := by
  cases m with
  | take x =>
    rw [System.core_take hs]
    exact h.handle (hc.handles hs).loads fun w hw => hm w (by rw [hw])
  | _ =>
    rw [System.core_step hs (by simp)]
    exact h

theorem Reached.stemsFrom {ℓ : Type} {past : List (Move ℓ)} {s : System ℓ} (h : Reached past s) :
    s.client.core.load.StemsFrom (Handled past) := by
  refine h.induction (P := fun past s => s.client.core.load.StemsFrom (Handled past))
    (fun _ _ => ⟨List.forall_mem_nil _, List.forall_mem_nil _, List.forall_mem_nil _⟩) ?_
  intro past s m s' hr ih hs
  have hmono (w : Work) (hw : Handled past w) : Handled (past ++ [m]) w := List.mem_append_left _ hw
  refine hr.coherent.stemsFrom (ih.mono hmono) hs fun w hw => ?_
  exact List.mem_append_right _ (by simp [hw])

end PubSub
