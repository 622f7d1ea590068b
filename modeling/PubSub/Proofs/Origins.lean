import PubSub.Proofs.Operations

/-! # Where rows come from

A row begins with a subscribe, and keeps the parameters and the listener of it
for as long as it is there. The subscribe was handled by the session, and the
client has accepted it, so the topic of the row is valid.
-/

namespace PubSub

open Turn

variable {known : Work → Prop}

def Subscription.AskedBy (known : Work → Prop) (row : Subscription) : Prop :=
  ∃ r, r.params = row.params ∧ r.listener = row.listener ∧ known (.subscribe r)

def Core.AskedBy (known : Work → Prop) (c : Core) : Prop :=
  ∀ row ∈ c.subscriptions, row.AskedBy known

namespace Core.AskedBy

variable {t : Turn} {w : Work} {row : Subscription}

theorem of_load {c c' : Core} (h : c.AskedBy known) (hl : c'.load = c.load) : c'.AskedBy known := by
  have hrows : c'.subscriptions = c.subscriptions := congrArg Load.subscriptions hl
  exact fun row hrow => h row (hrows ▸ hrow)

theorem putRow (h : t.core.AskedBy known) (hrow : row.AskedBy known) :
    (t.putRow row).core.AskedBy known := by
  intro r hr
  rcases Subscriptions.mem_put hr with rfl | hr
  · exact hrow
  · exact h r hr

theorem eraseRow (h : t.core.AskedBy known) (topic : Topic) :
    (t.eraseRow topic).core.AskedBy known :=
  fun r hr => h r (Subscriptions.mem_erase.mp hr).1

theorem executeSubscribe (h : t.core.AskedBy known) {r : SubscribeRequest}
    (hr : known (.subscribe r)) (k : ConnectionId) :
    (t.executeSubscribe k r).core.AskedBy known := by
  unfold Turn.executeSubscribe
  split
  · exact h.putRow ⟨r, rfl, rfl, hr⟩
  · next row hf =>
    split
    · exact h
    · refine h.putRow ?_
      exact h row (Subscriptions.find?_eq_some hf).1

theorem executeUnsubscribe (h : t.core.AskedBy known) (k : ConnectionId) (r : UnsubscribeRequest) :
    (t.executeUnsubscribe k r).core.AskedBy known := by
  unfold Turn.executeUnsubscribe
  split
  · exact h
  · next row hf =>
    have hrow : row.AskedBy known := h row (Subscriptions.find?_eq_some hf).1
    split <;> exact h.putRow hrow

theorem onWork (h : t.core.AskedBy known) (hw : known w) : (t.onWork w).core.AskedBy known := by
  unfold Turn.onWork
  split
  · rw [core_reject]
    exact h
  · exact h
  · unfold execute
    split
    · exact h
    · cases w with
      | send r => exact h
      | subscribe r => exact h.executeSubscribe hw _
      | unsubscribe r => exact h.executeUnsubscribe _ r

theorem replay (h : t.core.AskedBy known) {ws : List Work} (hws : ∀ w ∈ ws, known w) :
    (t.replay ws).core.AskedBy known := by
  induction ws generalizing t with
  | nil => exact h
  | cons w ws ih =>
    exact ih (h.onWork (hws w (List.mem_cons_self ..))) fun v hv =>
      hws v (List.mem_cons_of_mem _ hv)

theorem settleAll (h : t.core.AskedBy known) (ps : List PromiseId) (result : Outcome) :
    (t.settleAll ps result).core.AskedBy known := by
  rw [core_settleAll]
  exact h

theorem remakeSettled (h : t.core.AskedBy known) : t.remakeSettled.core.AskedBy known := by
  rw [core_remakeSettled]
  exact h

theorem perform (h : t.core.AskedBy known) (hs : t.core.load.StemsFrom known) {a : Action}
    (ha : a.isPlain = false) (closed : Turn → Turn) :
    (t.perform closed a).core.AskedBy known := by
  cases a with
  | remakeSubscriptions =>
    change t.remake.core.AskedBy known
    cases hk : t.core.connection with
    | none =>
      simp only [Turn.remake, hk]
      exact h
    | some k =>
      rw [(remake_of_connection t hk).1]
      intro row hrow
      obtain ⟨old, hold, rfl⟩ := List.mem_map.mp hrow
      unfold Subscription.remake
      split <;> exact h old hold
  | breakConnection =>
    change t.breakConnection.core.AskedBy known
    rw [core_breakConnection]
    intro row hrow
    obtain ⟨old, hold, rfl⟩ := List.mem_map.mp hrow
    exact h old hold
  | cleanup =>
    change t.cleanup.core.AskedBy known
    rw [core_cleanup]
    exact List.forall_mem_nil _
  | replayPendingWork =>
    exact replay (t := t.update fun c => { c with pendingWork := [] }) h hs.kept
  | _ => cases ha

theorem onSubscribed (h : t.core.AskedBy known) (hs : t.core.load.StemsFrom known)
    (k : ConnectionId) (topic : Topic) (result : Outcome) :
    (t.onSubscribed k topic result).core.AskedBy known := by
  unfold Turn.onSubscribed
  split
  · split
    · exact h
    · next row hf =>
      have hmem := (Subscriptions.find?_eq_some hf).1
      have hrow : row.AskedBy known := h row hmem
      have hpending (w : Work) (hw : w ∈ row.pending) : known w :=
        ((hs.rows row hmem).pending w hw).2
      split_ifs
      · exact h
      · unfold onSubscribedStopping
        split
        · refine remakeSettled (h.putRow ?_)
          exact hrow
        · exact h
      · unfold onRemade
        cases result with
        | ok =>
          refine remakeSettled (settleAll (h.putRow ?_) _ _)
          exact hrow
        | error e =>
          exact remakeSettled (t := Turn.notify _ _) (settleAll (h.eraseRow row.topic) _ _)
      · unfold onAttached
        cases result with
        | ok =>
          refine replay (settleAll (h.putRow ?_) _ _) hpending
          exact hrow
        | error e => exact replay (settleAll (h.eraseRow row.topic) _ _) hpending
  · exact h

theorem onUnsubscribed (h : t.core.AskedBy known) (hs : t.core.load.StemsFrom known)
    (k : ConnectionId) (topic : Topic) (result : Outcome) :
    (t.onUnsubscribed k topic result).core.AskedBy known := by
  unfold Turn.onUnsubscribed
  split
  · split
    · exact h
    · split
      · exact h
      · next row hf =>
        have hmem := (Subscriptions.find?_eq_some hf).1
        have hpending (w : Work) (hw : w ∈ row.pending) : known w :=
          ((hs.rows row hmem).pending w hw).2
        unfold onDetached
        cases result with
        | ok => exact replay (t := Turn.notify _ _) (settleAll (h.eraseRow row.topic) _ _) hpending
        | error e =>
          refine replay (settleAll (h.putRow ?_) _ _) hpending
          exact h row hmem
  · exact h

theorem handle {c : Core} {x : Signal} (h : c.AskedBy known) (hs : c.load.StemsFrom known)
    (hl : Loads c x) (hx : ∀ w, x = .work w → known w) : (c.handle x).core.AskedBy known := by
  cases hl with
  | leaves _ hl => exact h.of_load hl.load
  | steady hsteady hp =>
    cases x with
    | work w => exact onWork (t := begin c) h (hx w rfl)
    | sent k id result =>
      change ((begin c).onSent k id result).core.AskedBy known
      unfold Turn.onSent
      split
      · exact h
      · split_ifs <;> exact h
    | subscribed k topic result => exact onSubscribed (t := begin c) h hs k topic result
    | unsubscribed k topic result => exact onUnsubscribed (t := begin c) h hs k topic result
    | _ => cases hp
  | once ha _ before after =>
    exact ((h.of_load before.load).perform (before.load ▸ hs) ha fireClosed).of_load after.load
  | @twice t u _ _ before middle after =>
    refine of_load ?_ after.load
    rw [core_cleanup]
    exact List.forall_mem_nil _

end Core.AskedBy

theorem Call.valid_of_make {ℓ : Type} {c c' : Client ℓ} {topic : Topic}
    {options : SubscribeOptions} {listener : ListenerId} {p : PromiseId}
    (h : (Call.subscribe topic options listener).make c = .ok (p, c')) :
    topic.validate = .ok () := by
  simp only [Call.make, Client.subscribe] at h
  cases hv : topic.validate with
  | ok => rfl
  | error e => rw [hv] at h; cases h

namespace Reached

variable {ℓ : Type} {s : System ℓ} {past : List (Move ℓ)}

/-- Every row was asked for by a subscribe that the session has handled. -/
theorem rows_asked (h : Reached past s) : s.client.core.AskedBy (Handled past) := by
  refine h.induction (P := fun past s => s.client.core.AskedBy (Handled past))
    (fun _ _ => List.forall_mem_nil _) ?_
  intro past s m s' hr ih hs
  have hmono (w : Work) (hw : Handled past w) : Handled (past ++ [m]) w := List.mem_append_left _ hw
  have ih' : s.client.core.AskedBy (Handled (past ++ [m])) := fun row hrow =>
    have ⟨r, hp, hl, hk⟩ := ih row hrow
    ⟨r, hp, hl, hmono _ hk⟩
  cases m with
  | take x =>
    rw [System.core_take hs]
    exact ih'.handle (hr.stemsFrom.mono hmono) (hr.coherent.handles hs).loads fun w hw =>
      List.mem_append_right _ (by simp [hw])
  | _ =>
    rw [System.core_step hs (by simp)]
    exact ih'

theorem called_of_handled (h : Reached past s) {w : Work} (hw : Handled past w) :
    Called past (.work w) :=
  (h.given.called _ (List.mem_append_left _ (mem_handled.mpr hw))).resolve_left nofun

theorem valid_of_handled (h : Reached past s) {r : SubscribeRequest}
    (hr : Handled past (.subscribe r)) : r.params.topic.validate = .ok () := by
  obtain ⟨seen, call, p, hcall, hx⟩ := h.called_of_handled hr
  cases call with
  | subscribe topic options listener =>
    obtain ⟨before, later, rfl⟩ := List.append_of_mem hcall
    obtain ⟨u, v, -, hs⟩ := h.of_append_cons
    obtain ⟨-, c, hmake, -⟩ := System.step_call hs
    injection hx with hx
    injection hx with hx
    subst hx
    exact Call.valid_of_make hmake
  | _ => cases hx

end Reached

end PubSub
