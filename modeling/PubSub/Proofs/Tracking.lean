import PubSub.Proofs.Control
import PubSub.Proofs.Shapes

/-! # Tracking

What the marks of its phase tell is true of what a session tracks: the rows are
in shape, every renewal under way is counted, and a subscribe or unsubscribe
under way on the current connection belongs to the row of its topic.
-/

namespace PubSub

/-- What is under way on a connection for a topic belongs to the row of the topic. -/
structure Linked (lost : ConnectionId → Topic → Prop) (due : Awaited → Nat) (k : ConnectionId)
    (topic : Topic) (row? : Option Subscription) : Prop where
  subscribes : due (.reply (.subscribed k topic)) ≤
    if row?.any (·.state = .attaching) then 1 else 0
  unsubscribes : due (.reply (.unsubscribed k topic)) ≤
    if row?.any (·.state = .detaching) then 1 else 0
  /-- A renewal is under way, or the connection was already lost when it was answered. -/
  renewed : ∀ row, row? = some row → row.remaking →
    due (.reply (.subscribed k topic)) = 1 ∨ lost k topic

/-- What marks tell of what a session tracks and of what is under way for it. -/
structure Tracking (m : Marks) (lost : ConnectionId → Topic → Prop) (c : Core)
    (due : Awaited → Nat) : Prop where
  sorted : c.subscriptions.Sorted
  renewals : c.remakesOutstanding = c.subscriptions.countP (·.remaking)
  numbered : c.outstanding.Pairwise (·.id < ·.id)
  bounded : ∀ send ∈ c.outstanding, send.id ≤ c.sends
  shape : ∀ row ∈ c.subscriptions, m.rows.Admits row
  work : m.rows = .live → c.pendingWork = []
  idle : m.idle → c.pendingWork = [] ∧ c.outstanding = []
  remade : m.remade.Holds (c.remakesOutstanding = 0) (due .remade)
  linked : m.linked → ∀ k, c.connection = some k → ∀ topic,
    Linked lost due k topic (c.subscriptions.find? topic)
  newest : ∀ n, c.connections < n → ∀ topic,
    due (.reply (.subscribed ⟨n⟩ topic)) = 0 ∧ due (.reply (.unsubscribed ⟨n⟩ topic)) = 0

def Awaited.isOfRow : Awaited → Bool
  | reply (.subscribed ..) | reply (.unsubscribed ..) | remade => true
  | _ => false

namespace Linked

variable {lost : ConnectionId → Topic → Prop} {due due' : Awaited → Nat} {k : ConnectionId}
  {topic : Topic} {row row' : Subscription} {row? : Option Subscription}

theorem congr (h : Linked lost due k topic row?)
    (hs : due' (.reply (.subscribed k topic)) = due (.reply (.subscribed k topic)))
    (hu : due' (.reply (.unsubscribed k topic)) = due (.reply (.unsubscribed k topic))) :
    Linked lost due' k topic row? where
  subscribes := hs ▸ h.subscribes
  unsubscribes := hu ▸ h.unsubscribes
  renewed := by rw [hs]; exact h.renewed

theorem congr_row (h : Linked lost due k topic (some row)) (hs : row'.state = row.state)
    (hr : row'.remaking = row.remaking) : Linked lost due k topic (some row') where
  subscribes := by simpa [hs] using h.subscribes
  unsubscribes := by simpa [hs] using h.unsubscribes
  renewed := by
    intro r hrow hm
    obtain rfl := Option.some.inj hrow
    exact h.renewed row rfl (hr ▸ hm)

theorem of_none (hs : due (.reply (.subscribed k topic)) = 0)
    (hu : due (.reply (.unsubscribed k topic)) = 0) : Linked lost due k topic none :=
  ⟨hs.le, hu.le, by simp⟩

/-- Nothing need be under way for a row that is not being renewed. -/
theorem of_zero (hs : due (.reply (.subscribed k topic)) = 0)
    (hu : due (.reply (.unsubscribed k topic)) = 0)
    (hr : ∀ row, row? = some row → row.remaking = false) : Linked lost due k topic row? where
  subscribes := by rw [hs]; exact Nat.zero_le _
  unsubscribes := by rw [hu]; exact Nat.zero_le _
  renewed := by
    intro row hrow h
    rw [hr row hrow] at h
    cases h

theorem subscribed_eq_zero (h : Linked lost due k topic row?)
    (hs : ∀ row, row? = some row → row.state ≠ .attaching) :
    due (.reply (.subscribed k topic)) = 0 := by
  have := h.subscribes
  cases row? with
  | none => simpa using this
  | some row => simpa [hs row rfl] using this

theorem unsubscribed_eq_zero (h : Linked lost due k topic row?)
    (hs : ∀ row, row? = some row → row.state ≠ .detaching) :
    due (.reply (.unsubscribed k topic)) = 0 := by
  have := h.unsubscribes
  cases row? with
  | none => simpa using this
  | some row => simpa [hs row rfl] using this

theorem attaching (hd : ∀ a, due' a = due a + [Awaited.reply (.subscribed k topic)].count a)
    (hs : due (.reply (.subscribed k topic)) = 0) (hu : due (.reply (.unsubscribed k topic)) = 0)
    (hrow : row.Attaching) : Linked lost due' k topic (some row) where
  subscribes := by simp [hd, hs, hrow.state]
  unsubscribes := by simp [hd, hu]
  renewed := by
    intro r hr hrem
    obtain rfl := Option.some.inj hr
    exact absurd (hrow.remaking.symm.trans hrem) nofun

theorem detaching (hd : ∀ a, due' a = due a + [Awaited.reply (.unsubscribed k topic)].count a)
    (hs : due (.reply (.subscribed k topic)) = 0) (hu : due (.reply (.unsubscribed k topic)) = 0)
    (hrow : row.Detaching) : Linked lost due' k topic (some row) where
  subscribes := by simp [hd, hs]
  unsubscribes := by simp [hd, hu, hrow.state]
  renewed := by
    intro r hr hrem
    obtain rfl := Option.some.inj hr
    exact absurd (hrow.remaking.symm.trans hrem) nofun

end Linked

/-- What is under way for rows differs for one topic on one connection at most. -/
def SameBut (k : ConnectionId) (topic : Topic) (due due' : Awaited → Nat) : Prop :=
  ∀ k' t, k' ≠ k ∨ t ≠ topic →
    due' (.reply (.subscribed k' t)) = due (.reply (.subscribed k' t)) ∧
      due' (.reply (.unsubscribed k' t)) = due (.reply (.unsubscribed k' t))

namespace SameBut

variable {k : ConnectionId} {topic : Topic} {due due' due'' : Awaited → Nat}

theorem refl (due : Awaited → Nat) : SameBut k topic due due := fun _ _ _ => ⟨rfl, rfl⟩

theorem symm (h : SameBut k topic due due') : SameBut k topic due' due :=
  fun k' t hne => ⟨(h k' t hne).1.symm, (h k' t hne).2.symm⟩

theorem of_subscribed
    (hd : ∀ a, due' a = due a + [Awaited.reply (.subscribed k topic)].count a) :
    SameBut k topic due due' := by
  intro k' t hne
  have hne' : ¬ (k = k' ∧ topic = t) := by
    rintro ⟨rfl, rfl⟩
    exact hne.elim (· rfl) (· rfl)
  simp [hd, hne']

theorem of_unsubscribed
    (hd : ∀ a, due' a = due a + [Awaited.reply (.unsubscribed k topic)].count a) :
    SameBut k topic due due' := by
  intro k' t hne
  have hne' : ¬ (k = k' ∧ topic = t) := by
    rintro ⟨rfl, rfl⟩
    exact hne.elim (· rfl) (· rfl)
  simp [hd, hne']

end SameBut

namespace Tracking

open Turn

variable {m m' : Marks} {lost : ConnectionId → Topic → Prop} {c c' : Core}
  {due due' d env : Awaited → Nat} {t t' : Turn} {k : ConnectionId} {topic : Topic}
  {row row' : Subscription}

theorem congr (h : Tracking m lost c due) (hd : ∀ a, a.isOfRow → due' a = due a)
    (hs : c'.subscriptions = c.subscriptions) (hr : c'.remakesOutstanding = c.remakesOutstanding)
    (ho : c'.outstanding = c.outstanding) (hn : c'.sends = c.sends)
    (hw : c'.pendingWork = c.pendingWork) (hk : c'.connection = c.connection)
    (hc : c'.connections = c.connections) : Tracking m lost c' due' where
  sorted := by rw [hs]; exact h.sorted
  renewals := by rw [hr, hs]; exact h.renewals
  numbered := by rw [ho]; exact h.numbered
  bounded := by rw [ho, hn]; exact h.bounded
  shape := by rw [hs]; exact h.shape
  work := by rw [hw]; exact h.work
  idle := by rw [hw, ho]; exact h.idle
  remade := by simp only [hr, hd .remade rfl]; exact h.remade
  linked := by
    rw [hs, hk]
    exact fun hm k hk topic => (h.linked hm k hk topic).congr (hd _ rfl) (hd _ rfl)
  newest := fun n hlt topic => by rw [hd _ rfl, hd _ rfl]; exact h.newest n (hc ▸ hlt) topic

theorem mono (h : Tracking m lost c due) (hle : m.le m') : Tracking m' lost c due := by
  simp only [Marks.le, Bool.and_eq_true, Bool.or_eq_true, Bool.not_eq_true'] at hle
  obtain ⟨⟨⟨⟨⟨-, hrem⟩, -⟩, hrows⟩, hlink⟩, hidle⟩ := hle
  refine ⟨h.sorted, h.renewals, h.numbered, h.bounded, ?_, ?_, ?_, h.remade.mono hrem, ?_,
    h.newest⟩
  · exact fun row hm => (h.shape row hm).mono hrows
  · intro hlive
    rw [hlive] at hrows
    exact h.work (RowShape.eq_live_of_le hrows)
  · exact fun hm => h.idle (hidle.resolve_right (by simp [hm]))
  · exact fun hm => h.linked (hlink.resolve_right (by simp [hm]))

theorem exchange (h : Tracking m lost c d) {rows : Subscriptions} {n : Nat}
    (hk : c.connection = some k) (hs : rows.Sorted)
    (hf : ∀ t, t ≠ topic → rows.find? t = c.subscriptions.find? t)
    (hshape : ∀ row, rows.find? topic = some row → m.rows.Admits row)
    (hd : SameBut k topic d env)
    (hl : m.linked → Linked lost env k topic (rows.find? topic))
    (hn : n = rows.countP (·.remaking)) (hr : m.remade.Holds (n = 0) (env .remade))
    (hnew : k.number ≤ c.connections) :
    Tracking m lost { c with subscriptions := rows, remakesOutstanding := n } env where
  sorted := hs
  renewals := hn
  numbered := h.numbered
  bounded := h.bounded
  shape := by
    intro row hm
    have hrow := hs.find?_of_mem hm
    by_cases ht : row.topic = topic
    · exact hshape row (ht ▸ hrow)
    · rw [hf _ ht] at hrow
      exact h.shape row (Subscriptions.find?_eq_some hrow).1
  work := h.work
  idle := h.idle
  remade := hr
  linked := by
    intro hm k' hk' t
    obtain rfl : k = k' := Option.some.inj (hk.symm.trans hk')
    by_cases ht : t = topic
    · subst ht
      exact hl hm
    · have hsame := hd k t (.inr ht)
      simp only [hf t ht]
      exact (h.linked hm k hk t).congr hsame.1 hsame.2
  newest := by
    intro n hlt t
    have hne : (⟨n⟩ : ConnectionId) ≠ k := by
      rintro rfl
      exact absurd hlt (Nat.not_lt.mpr hnew)
    have hsame := hd ⟨n⟩ t (.inl hne)
    rw [hsame.1, hsame.2]
    exact h.newest n hlt t

theorem put (h : Tracking m lost c d) {n : Nat} (hk : c.connection = some k)
    (hnew : k.number ≤ c.connections) (hrow : m.rows.Admits row)
    (hd : SameBut k row.topic d env) (hl : m.linked → Linked lost env k row.topic (some row))
    (hn : n = (c.subscriptions.put row).countP (·.remaking))
    (hr : m.remade.Holds (n = 0) (env .remade)) :
    Tracking m lost
      { c with subscriptions := c.subscriptions.put row, remakesOutstanding := n } env := by
  have hput : (c.subscriptions.put row).find? row.topic = some row := by
    rw [Subscriptions.find?_put, if_pos rfl]
  refine h.exchange hk (h.sorted.put row) ?_ ?_ hd (hput ▸ hl) hn hr hnew
  · intro t ht
    rw [Subscriptions.find?_put, if_neg ht.symm]
  · intro r hfind
    obtain rfl := Option.some.inj (hput.symm.trans hfind)
    exact hrow

theorem erase (h : Tracking m lost c d) {n : Nat} (hk : c.connection = some k)
    (hnew : k.number ≤ c.connections) (hd : SameBut k topic d env)
    (hl : m.linked → Linked lost env k topic none)
    (hn : n = (c.subscriptions.erase topic).countP (·.remaking))
    (hr : m.remade.Holds (n = 0) (env .remade)) :
    Tracking m lost
      { c with subscriptions := c.subscriptions.erase topic, remakesOutstanding := n } env := by
  have herase : (c.subscriptions.erase topic).find? topic = none := by
    rw [Subscriptions.find?_erase, if_pos rfl]
  refine h.exchange hk (h.sorted.erase topic) ?_ ?_ hd (herase ▸ hl) hn hr hnew
  · intro t ht
    rw [Subscriptions.find?_erase, if_neg ht]
  · intro r hfind
    cases herase.symm.trans hfind

theorem admits (h : Tracking m lost c due) (hf : c.subscriptions.find? topic = some row) :
    m.rows.Admits row :=
  h.shape row (Subscriptions.find?_eq_some hf).1

section Work

theorem emit (h : Tracking m lost t.core (t.due env)) {e : Effect}
    (he : ∀ a ∈ e.awaited, a.isOfRow = false) : Tracking m lost t.core ((t.emit e).due env) := by
  refine h.congr (fun a ha => ?_) rfl rfl rfl rfl rfl rfl rfl
  have hz : e.awaited.count a = 0 := List.count_eq_zero.mpr fun hm => by simp [he a hm] at ha
  rw [due_emit, hz, Nat.add_zero]

theorem executeSend (h : Tracking m lost t.core (t.due env)) (hm : m.idle = false)
    (r : SendRequest) :
    Tracking m lost (t.executeSend k r).core ((t.executeSend k r).due env) := by
  have hd (a : Awaited) : (t.executeSend k r).due env a =
    t.due env a + [Awaited.reply (.sent k (t.core.sends + 1))].count a := due_emit ..
  have h' : Tracking m lost t.core ((t.executeSend k r).due env) := by
    refine h.congr (fun a ha => ?_) rfl rfl rfl rfl rfl rfl rfl
    rw [hd, List.count_eq_zero.mpr, Nat.add_zero]
    intro hs
    obtain rfl := List.mem_singleton.mp hs
    cases ha
  refine { h' with numbered := ?_, bounded := ?_, idle := fun hi => absurd (hm ▸ hi) nofun }
  · refine List.pairwise_append.mpr ⟨h.numbered, List.pairwise_singleton .., ?_⟩
    intro a ha b hb
    obtain rfl := List.mem_singleton.mp hb
    exact Nat.lt_succ_of_le (h.bounded a ha)
  · intro send hs
    rcases List.mem_append.mp hs with hs | hs
    · exact (h.bounded send hs).trans (Nat.le_succ _)
    · obtain rfl := List.mem_singleton.mp hs
      exact le_rfl

theorem append (h : Tracking m lost t.core (t.due env)) (hlive : m.rows = .live)
    (hk : t.core.connection = some k) (hnew : k.number ≤ t.core.connections)
    (hf : t.core.subscriptions.find? topic = some row) (hs : row.state ≠ .established) {w : Work}
    (hw : w.isOn topic) :
    Tracking m lost (t.putRow { row with pending := row.pending ++ [w] }).core (t.due env) := by
  have htopic : row.topic = topic := (Subscriptions.find?_eq_some hf).2
  have hl := h.admits hf
  rw [hlive] at hl
  subst htopic
  refine h.put hk hnew ?_ (.refl _) (fun hm => ?_) ?_ h.remade
  · rw [hlive]
    exact Subscription.Live.append hl hs hw
  · have hold := h.linked hm k hk row.topic
    rw [hf] at hold
    exact hold.congr_row rfl rfl
  · rw [h.renewals, h.sorted.countP_put, h.sorted.countP_erase hf]
    rfl

theorem executeSubscribe (h : Tracking m lost t.core (t.due env)) (hlive : m.rows = .live)
    (hk : t.core.connection = some k) (hnew : k.number ≤ t.core.connections)
    (r : SubscribeRequest) :
    Tracking m lost (t.executeSubscribe k r).core ((t.executeSubscribe k r).due env) := by
  unfold Turn.executeSubscribe
  split
  · next hf =>
    have hd (a : Awaited) : ((t.putRow (.new r)).request (.subscribe k r.params)).due env a =
      t.due env a + [Awaited.reply (.subscribed k r.params.topic)].count a := due_emit ..
    refine h.put hk hnew ?_ (.of_subscribed hd) (fun hm => ?_) ?_ ?_
    · rw [hlive]
      exact .inr (.inl (Subscription.attaching_new r))
    · have hold := h.linked hm k hk r.params.topic
      rw [hf] at hold
      exact .attaching hd (hold.subscribed_eq_zero (by simp))
        (hold.unsubscribed_eq_zero (by simp)) (Subscription.attaching_new r)
    · rw [h.sorted.countP_put]
      have he : t.core.subscriptions.erase (Subscription.new r).topic = t.core.subscriptions :=
        Subscriptions.erase_of_find?_eq_none hf
      rw [he]
      exact h.renewals
    · rw [hd]
      simpa using h.remade
  · next row hf =>
    split
    · exact h.emit (by simp [Effect.awaited])
    · next hidle =>
      have hl : row.Live := by
        have := h.admits hf
        rwa [hlive] at this
      have hs : row.state ≠ .established := fun hs => by
        simp [Subscription.isIdle, hs, (hl.settled hs).pending] at hidle
      exact h.append hlive hk hnew hf hs (by simp [Work.isOn])

theorem executeUnsubscribe (h : Tracking m lost t.core (t.due env)) (hlive : m.rows = .live)
    (hk : t.core.connection = some k) (hnew : k.number ≤ t.core.connections)
    (r : UnsubscribeRequest) :
    Tracking m lost (t.executeUnsubscribe k r).core ((t.executeUnsubscribe k r).due env) := by
  unfold Turn.executeUnsubscribe
  split
  · exact h.emit (by simp [Effect.awaited])
  · next row hf =>
    have hl : row.Live := by
      have := h.admits hf
      rwa [hlive] at this
    split
    · next hs =>
      have htopic : row.topic = r.topic := (Subscriptions.find?_eq_some hf).2
      have hrow := hl.settled hs.1
      have hd (a : Awaited) : ((t.putRow { row with
          state := .detaching, unsubscribing := some r }).request
          (.unsubscribe k r.topic r.zeroTtl)).due env a =
        t.due env a + [Awaited.reply (.unsubscribed k r.topic)].count a := due_emit ..
      rw [← htopic] at hd hf ⊢
      have hrow' : Subscription.Detaching
          { row with state := .detaching, unsubscribing := some r } :=
        ⟨rfl, hrow.establishedOnce, hrow.subscribing, rfl, hrow.awaiting, by simp [hrow.pending],
          hrow.remaking⟩
      refine h.put hk hnew ?_ (.of_unsubscribed hd) (fun hm => ?_) ?_ ?_
      · rw [hlive]
        exact .inr (.inr hrow')
      · have hold := h.linked hm k hk row.topic
        rw [hf] at hold
        exact .detaching hd (hold.subscribed_eq_zero (by simp [hrow.state]))
          (hold.unsubscribed_eq_zero (by simp [hrow.state])) hrow'
      · rw [h.renewals, h.sorted.countP_put, h.sorted.countP_erase hf]
        rfl
      · rw [hd]
        simpa using h.remade
    · next hs =>
      refine h.append hlive hk hnew hf (fun he => hs ⟨he, ?_⟩) (by simp [Work.isOn])
      simp [(hl.settled he).pending]

theorem execute (hc : Control Phase.started.marks t.core.course (t.due env))
    (h : Tracking Phase.started.marks lost t.core (t.due env)) (w : Work) :
    Tracking Phase.started.marks lost (t.execute w).core ((t.execute w).due env) := by
  have hk := hc.connection_of_connected rfl
  unfold Turn.execute
  rw [hk]
  cases w with
  | send r => exact h.executeSend rfl r
  | subscribe r => exact h.executeSubscribe rfl hk le_rfl r
  | unsubscribe r => exact h.executeUnsubscribe rfl hk le_rfl r

theorem onWork (hc : Control t.core.phase.marks t.core.course (t.due env))
    (h : Tracking t.core.phase.marks lost t.core (t.due env)) (w : Work) :
    Tracking t.core.phase.marks lost (t.onWork w).core ((t.onWork w).due env) := by
  unfold Turn.onWork
  cases hw : t.core.phase.view.work with
  | reject =>
    simp only [core_reject]
    exact h.congr (fun a _ => (silent_reject t w .clientStopped).due env a)
      rfl rfl rfl rfl rfl rfl rfl
  | queue =>
    have hq : t.core.phase.marks.rows ≠ .live ∧ t.core.phase.marks.idle = false := by
      revert hw
      cases t.core.phase <;> decide
    exact { h with
      work := fun hl => absurd hl hq.1
      idle := fun hi => absurd (hq.2.symm.trans hi) nofun }
  | accept =>
    have hp := Phase.eq_started_of_accept hw
    rw [hp] at hc h ⊢
    exact h.execute hc w

theorem replay (hc : Control Phase.started.marks t.core.course (t.due env))
    (h : Tracking Phase.started.marks lost t.core (t.due env)) (hp : t.core.phase = .started)
    (ws : List Work) :
    Tracking Phase.started.marks lost (t.replay ws).core ((t.replay ws).due env) := by
  induction ws generalizing t with
  | nil => exact h
  | cons w ws ih =>
    have hs := stays_onWork t w
    have h' := onWork (t := t) (by rwa [hp]) (by rwa [hp]) w
    rw [hp] at h'
    exact ih (hc.stays hs) h' ((congrArg Course.phase hs.course).trans hp)

end Work

section Answers

variable {p : Phase} {result : Outcome}

/-- The answer that comes to an end matters to no row. -/
theorem late (h : Tracking m lost c d) (hle : ∀ a, env a ≤ d a)
    (hr : m.remade.Holds (c.remakesOutstanding = 0) (env .remade))
    (hl : ∀ k, c.connection = some k → ∀ topic,
      env (.reply (.subscribed k topic)) = d (.reply (.subscribed k topic)) ∧
        env (.reply (.unsubscribed k topic)) = d (.reply (.unsubscribed k topic))) :
    Tracking m lost c env :=
  { h with
    remade := hr
    linked := fun hm k hk topic =>
      (h.linked hm k hk topic).congr (hl k hk topic).1 (hl k hk topic).2
    newest := fun n hn topic =>
      ⟨Nat.eq_zero_of_le_zero ((h.newest n hn topic).1 ▸ hle _),
        Nat.eq_zero_of_le_zero ((h.newest n hn topic).2 ▸ hle _)⟩ }

/-- The row that an answer to a subscribe on the current connection belongs to. -/
theorem attaching_of_subscribed (h : Tracking p.marks lost c d) (hk : c.connection = some k)
    (hd : ∀ a, d a = env a + [Awaited.reply (.subscribed k topic)].count a) :
    env (.reply (.subscribed k topic)) = 0 ∧ env (.reply (.unsubscribed k topic)) = 0 ∧
      ∃ row, c.subscriptions.find? topic = some row ∧ row.state = .attaching := by
  have hl := h.linked rfl k hk topic
  have hs := hl.subscribes
  rw [hd, List.count_singleton_self] at hs
  cases hf : c.subscriptions.find? topic with
  | none => simp [hf] at hs
  | some row =>
    rw [hf] at hl hs
    by_cases hst : row.state = .attaching
    · have hu := hl.unsubscribed_eq_zero (by simp [hst])
      refine ⟨?_, ?_, row, rfl, hst⟩
      · simp only [Option.any_some, hst, decide_true, if_true] at hs
        omega
      · simpa [hd] using hu
    · simp [hst] at hs

theorem detaching_of_unsubscribed (h : Tracking p.marks lost c d) (hk : c.connection = some k)
    (hd : ∀ a, d a = env a + [Awaited.reply (.unsubscribed k topic)].count a) :
    env (.reply (.subscribed k topic)) = 0 ∧ env (.reply (.unsubscribed k topic)) = 0 ∧
      ∃ row, c.subscriptions.find? topic = some row ∧ row.state = .detaching := by
  have hl := h.linked rfl k hk topic
  have hu := hl.unsubscribes
  rw [hd, List.count_singleton_self] at hu
  cases hf : c.subscriptions.find? topic with
  | none => simp [hf] at hu
  | some row =>
    rw [hf] at hl hu
    by_cases hst : row.state = .detaching
    · have hs := hl.subscribed_eq_zero (by simp [hst])
      refine ⟨?_, ?_, row, rfl, hst⟩
      · simpa [hd] using hs
      · simp only [Option.any_some, hst, decide_true, if_true] at hu
        omega
    · simp [hst] at hu

/-- While a renewal is under way nothing tells yet that all are over. -/
theorem remade_of_remaking (h : Tracking p.marks lost c d)
    (hf : c.subscriptions.find? topic = some row) (hr : row.remaking) :
    1 ≤ c.remakesOutstanding ∧ ∀ n, p.marks.remade.Holds (n = 0)
      (d .remade + if n = 0 then 1 else 0) := by
  have hpos : 1 ≤ c.remakesOutstanding := by
    rw [h.renewals, h.sorted.countP_erase hf, if_pos hr]
    exact Nat.le_add_left ..
  refine ⟨hpos, fun n => ?_⟩
  have hmark : p.marks.remade ≠ .absent := by
    have hrow := RowShape.Admits.of_remaking (h.admits hf) hr
    revert hrow
    cases p <;> decide
  have hrem := h.remade
  cases hm : p.marks.remade with
  | absent => exact absurd hm hmark
  | exact =>
    rw [hm] at hrem
    have hz : d .remade = 0 := by rw [hrem, if_neg (Nat.one_le_iff_ne_zero.mp hpos)]
    simp [Posting.Holds, hz]
  | any => trivial

/-- An answer to a subscribe leaves the rows, unless it ends a renewal. -/
theorem subscribed_ignored (h : Tracking p.marks lost c d) (hk : c.connection = some k)
    (hnew : k.number ≤ c.connections)
    (hd : ∀ a, d a = env a + [Awaited.reply (.subscribed k topic)].count a)
    (hf : c.subscriptions.find? topic = some row) (hr : row.remaking → lost k topic) :
    Tracking p.marks lost c env := by
  obtain ⟨hs, hu, -⟩ := h.attaching_of_subscribed hk hd
  refine h.exchange hk h.sorted (fun _ _ => rfl) (fun row hrow => h.admits hrow)
    (SameBut.of_subscribed hd).symm (fun _ => ?_) h.renewals (by simpa [hd] using h.remade) hnew
  rw [hf]
  refine ⟨by rw [hs]; exact Nat.zero_le _, by rw [hu]; exact Nat.zero_le _, ?_⟩
  intro r hrow hrem
  obtain rfl := Option.some.inj hrow
  exact .inr (hr hrem)

section Settled

variable (h : Tracking p.marks lost c d) (hk : c.connection = some k)
  (hnew : k.number ≤ c.connections) (hf : c.subscriptions.find? row.topic = some row)
include h hk hnew hf

theorem answered_put (ht : row'.topic = row.topic) (hr : row'.remaking = row.remaking)
    (hr' : row.remaking = false) (hrow : p.marks.rows.Admits row')
    (hsame : SameBut k row.topic d env) (hs : env (.reply (.subscribed k row.topic)) = 0)
    (hu : env (.reply (.unsubscribed k row.topic)) = 0) (hrem : env .remade = d .remade) :
    Tracking p.marks lost { c with subscriptions := c.subscriptions.put row' } env := by
  rw [← ht] at hsame hs hu hf
  refine h.put hk hnew hrow hsame (fun _ => .of_zero hs hu ?_) ?_ (hrem ▸ h.remade)
  · intro r hrr
    exact Option.some.inj hrr ▸ hr.trans hr'
  · rw [h.renewals, h.sorted.countP_put, h.sorted.countP_erase hf, hr]

theorem answered_erase (hr : row.remaking = false) (hsame : SameBut k row.topic d env)
    (hs : env (.reply (.subscribed k row.topic)) = 0)
    (hu : env (.reply (.unsubscribed k row.topic)) = 0) (hrem : env .remade = d .remade) :
    Tracking p.marks lost { c with subscriptions := c.subscriptions.erase row.topic } env := by
  refine h.erase hk hnew hsame (fun _ => .of_none hs hu) ?_ (hrem ▸ h.remade)
  rw [h.renewals, h.sorted.countP_erase hf, hr]
  rfl

variable (hd : ∀ a, d a = env a + [Awaited.reply (.subscribed k row.topic)].count a)
  (hr : row.remaking)
  (hdue : ∀ a, due a = env a +
    if c.remakesOutstanding - 1 = 0 then [Awaited.remade].count a else 0)
include hd hr hdue

omit h hk hnew hf hr in
theorem sameBut_renewed : SameBut k row.topic d due := by
  intro k' t hne
  have hsame := (SameBut.of_subscribed hd).symm k' t hne
  simp [hdue, hsame.1, hsame.2]

theorem renewed_put (ht : row'.topic = row.topic) (hr' : row'.remaking = false)
    (hrow : p.marks.rows.Admits row') :
    Tracking p.marks lost { c with
      subscriptions := c.subscriptions.put row'
      remakesOutstanding := c.remakesOutstanding - 1 } due := by
  obtain ⟨hs, hu, -⟩ := h.attaching_of_subscribed hk hd
  obtain ⟨hpos, hrem⟩ := h.remade_of_remaking hf hr
  have hsame := sameBut_renewed hd hdue
  rw [← ht] at hsame hs hu hf
  refine h.put hk hnew hrow hsame (fun _ => .of_zero ?_ ?_ ?_) ?_ ?_
  · simpa [hdue] using hs
  · simpa [hdue] using hu
  · intro r hrr
    exact Option.some.inj hrr ▸ hr'
  · rw [h.renewals, h.sorted.countP_put, h.sorted.countP_erase hf, hr, hr']
    rfl
  · simpa [hdue, hd] using hrem (c.remakesOutstanding - 1)

theorem renewed_erase :
    Tracking p.marks lost { c with
      subscriptions := c.subscriptions.erase row.topic
      remakesOutstanding := c.remakesOutstanding - 1 } due := by
  obtain ⟨hs, hu, -⟩ := h.attaching_of_subscribed hk hd
  obtain ⟨hpos, hrem⟩ := h.remade_of_remaking hf hr
  have hsame := sameBut_renewed hd hdue
  refine h.erase hk hnew hsame (fun _ => .of_none ?_ ?_) ?_ ?_
  · simpa [hdue] using hs
  · simpa [hdue] using hu
  · rw [h.renewals, h.sorted.countP_erase hf, hr]
    rfl
  · simpa [hdue, hd] using hrem (c.remakesOutstanding - 1)

end Settled

theorem onSubscribedStopping (h : Tracking p.marks lost t.core d)
    (hk : t.core.connection = some k) (hnew : k.number ≤ t.core.connections)
    (hd : ∀ a, d a = t.due env a + [Awaited.reply (.subscribed k row.topic)].count a)
    (hf : t.core.subscriptions.find? row.topic = some row) (hstop : p.rowShape = .any) :
    Tracking p.marks lost (t.onSubscribedStopping row).core
      ((t.onSubscribedStopping row).due env) := by
  unfold Turn.onSubscribedStopping
  split
  · next hr =>
    rw [core_remakeSettled]
    refine h.renewed_put hk hnew hf hd hr (fun a => due_remakeSettled ..) rfl rfl ?_
    simp only [Phase.marks, hstop]
    trivial
  · next hr => exact h.subscribed_ignored hk hnew hd hf (fun hr' => absurd hr' hr)

theorem onRemade (h : Tracking p.marks lost t.core d)
    (hk : t.core.connection = some k) (hnew : k.number ≤ t.core.connections)
    (hd : ∀ a, d a = t.due env a + [Awaited.reply (.subscribed k row.topic)].count a)
    (hf : t.core.subscriptions.find? row.topic = some row) (hstop : p.rowShape ≠ .any)
    (hr : row.remaking) :
    Tracking p.marks lost (t.onRemade row result).core ((t.onRemade row result).due env) := by
  have hren : p.marks.rows = .renewing :=
    (RowShape.Admits.of_remaking (h.admits hf) hr).resolve_right hstop
  cases result with
  | ok =>
    simp only [Turn.onRemade, core_remakeSettled, core_settleAll, core_putRow]
    refine h.renewed_put hk hnew hf hd hr (fun a => ?_) rfl rfl ?_
    · rw [due_remakeSettled, due_settleAll, core_settleAll]
      rfl
    · have hrow := h.admits hf
      rw [hren] at hrow ⊢
      rcases hrow with hrow | hrow
      · exact .inr hrow.settled
      · exact absurd (hrow.remaking.symm.trans hr) nofun
  | error e =>
    simp only [Turn.onRemade, core_remakeSettled, core_notify, core_settleAll, core_eraseRow]
    refine h.renewed_erase hk hnew hf hd hr (fun a => ?_)
    rw [due_remakeSettled, due_notify, due_settleAll, core_notify, core_settleAll]
    rfl

theorem replay_after {u : Core} (hc : Control Phase.started.marks t.core.course (t.due env))
    (hp : t.core.phase = .started) (h : Tracking Phase.started.marks lost u (t.due env))
    (hs : t.Stays t') (hu : t'.core = u) (hd : ∀ a, t'.due env a = t.due env a)
    (ws : List Work) :
    Tracking Phase.started.marks lost (t'.replay ws).core ((t'.replay ws).due env) := by
  subst hu
  exact replay (hc.stays hs) (h.congr (fun a _ => hd a) rfl rfl rfl rfl rfl rfl rfl)
    ((congrArg Course.phase hs.course).trans hp) ws

theorem onAttached (hc : Control Phase.started.marks t.core.course (t.due env))
    (hp : t.core.phase = .started) (h : Tracking Phase.started.marks lost t.core d)
    (hk : t.core.connection = some k) (hnew : k.number ≤ t.core.connections)
    (hd : ∀ a, d a = t.due env a + [Awaited.reply (.subscribed k row.topic)].count a)
    (hf : t.core.subscriptions.find? row.topic = some row) :
    Tracking Phase.started.marks lost (t.onAttached row result).core
      ((t.onAttached row result).due env) := by
  obtain ⟨hs, hu, r, hr, hst⟩ := h.attaching_of_subscribed hk hd
  obtain rfl := Option.some.inj (hf.symm.trans hr)
  have hrow : row.Attaching := Subscription.Live.attaching (h.admits hf) hst
  have hsame := (SameBut.of_subscribed hd).symm
  have hrem : t.due env .remade = d .remade := by simp [hd]
  cases result with
  | ok u =>
    let row' : Subscription :=
      { row with
        state := .established, establishedOnce := true, subscribing := none, pending := [] }
    have hrow' : row'.Settled :=
      ⟨rfl, rfl, rfl, hrow.unsubscribing, hrow.awaiting, rfl, hrow.remaking⟩
    have ht : row'.topic = row.topic := rfl
    have h' := h.answered_put hk hnew hf ht rfl hrow.remaking (.inl hrow') hsame hs hu hrem
    exact replay_after hc hp h' ((stays_putRow t row').trans (stays_settleAll ..))
      (core_settleAll ..) (fun a => due_settleAll ..) row.pending
  | error e =>
    have h' := h.answered_erase hk hnew hf hrow.remaking hsame hs hu hrem
    exact replay_after hc hp h' ((stays_eraseRow t row.topic).trans (stays_settleAll ..))
      (core_settleAll ..) (fun a => due_settleAll ..) row.pending

theorem onDetached (hc : Control Phase.started.marks t.core.course (t.due env))
    (hp : t.core.phase = .started) (h : Tracking Phase.started.marks lost t.core d)
    (hk : t.core.connection = some k) (hnew : k.number ≤ t.core.connections)
    (hd : ∀ a, d a = t.due env a + [Awaited.reply (.unsubscribed k row.topic)].count a)
    (hf : t.core.subscriptions.find? row.topic = some row) :
    Tracking Phase.started.marks lost (t.onDetached row result).core
      ((t.onDetached row result).due env) := by
  obtain ⟨hs, hu, r, hr, hst⟩ := h.detaching_of_unsubscribed hk hd
  obtain rfl := Option.some.inj (hf.symm.trans hr)
  have hrow : row.Detaching := Subscription.Live.detaching (h.admits hf) hst
  have hsame := (SameBut.of_unsubscribed hd).symm
  have hrem : t.due env .remade = d .remade := by simp [hd]
  cases result with
  | ok u =>
    have h' := h.answered_erase hk hnew hf hrow.remaking hsame hs hu hrem
    exact replay_after hc hp h'
      (((stays_eraseRow t row.topic).trans (stays_settleAll ..)).emit
        (e := .notify (.unsubscribed row.listener row.topic none)) rfl)
      (core_settleAll ..) (fun a => (due_notify ..).trans (due_settleAll ..)) row.pending
  | error e =>
    let row' : Subscription :=
      { row with state := .established, unsubscribing := none, pending := [] }
    have hrow' : row'.Settled :=
      ⟨rfl, hrow.establishedOnce, hrow.subscribing, rfl, hrow.awaiting, rfl, hrow.remaking⟩
    have ht : row'.topic = row.topic := rfl
    have h' := h.answered_put hk hnew hf ht rfl hrow.remaking (.inl hrow') hsame hs hu hrem
    exact replay_after hc hp h' ((stays_putRow t row').trans (stays_settleAll ..))
      (core_settleAll ..) (fun a => due_settleAll ..) row.pending

theorem onSubscribed (hc : Control t.core.phase.marks t.core.course (t.due env))
    (h : Tracking t.core.phase.marks lost t.core d)
    (hd : ∀ a, d a = t.due env a + [Awaited.reply (.subscribed k topic)].count a)
    (hlost : Outcome.isRetryable result → lost k topic) :
    Tracking t.core.phase.marks lost (t.onSubscribed k topic result).core
      ((t.onSubscribed k topic result).due env) := by
  have hle : ∀ a, t.due env a ≤ d a := fun a => hd a ▸ Nat.le_add_right ..
  unfold Turn.onSubscribed
  split
  · next hcur =>
    have hk : t.core.connection = some k := by simpa [Core.isCurrent] using hcur
    have hnew : k.number ≤ t.core.connections := by rw [(hc.isCurrent_iff.mp hcur).2]
    obtain ⟨hs, hu, row, hf, hst⟩ := h.attaching_of_subscribed hk hd
    have htopic := (Subscriptions.find?_eq_some hf).2
    subst htopic
    rw [hf]
    dsimp only
    split_ifs with hr hstop hrem
    · exact h.subscribed_ignored hk hnew hd hf fun _ => hlost hr
    · exact h.onSubscribedStopping hk hnew hd hf
        (Phase.rowShape_of_isStopping (h.admits hf) hstop)
    · exact h.onRemade hk hnew hd hf (Phase.rowShape_ne_any hstop) hrem
    · have hp := Phase.eq_started_of_attaching (h.admits hf) hstop hst (by simpa using hrem)
      rw [hp] at h hc ⊢
      exact onAttached hc hp h hk hnew hd hf
  · next hcur =>
    refine h.late hle (by simpa [hd] using h.remade) (fun k' hk' topic' => ?_)
    have hne : k ≠ k' := by
      rintro rfl
      simp [Core.isCurrent, hk'] at hcur
    simp [hd, hne]

theorem onUnsubscribed (hc : Control t.core.phase.marks t.core.course (t.due env))
    (h : Tracking t.core.phase.marks lost t.core d)
    (hd : ∀ a, d a = t.due env a + [Awaited.reply (.unsubscribed k topic)].count a) :
    Tracking t.core.phase.marks lost (t.onUnsubscribed k topic result).core
      ((t.onUnsubscribed k topic result).due env) := by
  have hle : ∀ a, t.due env a ≤ d a := fun a => hd a ▸ Nat.le_add_right ..
  unfold Turn.onUnsubscribed
  split
  · next hcur =>
    have hk : t.core.connection = some k := by simpa [Core.isCurrent] using hcur
    have hnew : k.number ≤ t.core.connections := by rw [(hc.isCurrent_iff.mp hcur).2]
    obtain ⟨hs, hu, row, hf, hst⟩ := h.detaching_of_unsubscribed hk hd
    have htopic := (Subscriptions.find?_eq_some hf).2
    subst htopic
    split
    · refine h.exchange hk h.sorted (fun _ _ => rfl) (fun row hrow => h.admits hrow)
        (SameBut.of_unsubscribed hd).symm (fun hm => ?_) h.renewals (by simpa [hd] using h.remade)
        hnew
      have hl := h.linked hm k hk row.topic
      refine ⟨by simpa [hd] using hl.subscribes, by rw [hu]; exact Nat.zero_le _, ?_⟩
      simpa [hd] using hl.renewed
    · next hstop =>
      rw [Bool.or_eq_true, not_or] at hstop
      rw [hf]
      have hp := Phase.eq_started_of_detaching (h.admits hf) hstop.2 hst
      rw [hp] at h hc ⊢
      exact onDetached hc hp h hk hnew hd hf
  · next hcur =>
    refine h.late hle (by simpa [hd] using h.remade) (fun k' hk' topic' => ?_)
    have hne : k ≠ k' := by
      rintro rfl
      simp [Core.isCurrent, hk'] at hcur
    simp [hd, hne]

theorem onSent {id : Nat} (h : Tracking m lost t.core d)
    (hd : ∀ a, d a = t.due env a + [Awaited.reply (.sent k id)].count a) :
    Tracking m lost (t.onSent k id result).core ((t.onSent k id result).due env) := by
  have hd' (a : Awaited) (ha : a.isOfRow) : t.due env a = d a := by
    rw [hd, List.count_eq_zero.mpr, Nat.add_zero]
    intro hs
    obtain rfl := List.mem_singleton.mp hs
    cases ha
  have h' : Tracking m lost t.core (t.due env) := h.congr hd' rfl rfl rfl rfl rfl rfl rfl
  unfold Turn.onSent
  split
  · exact h'
  · split_ifs
    · exact h'
    · exact h'
    · have hf : Tracking m lost (t.update fun c =>
          { c with outstanding := c.outstanding.filter (·.id ≠ id) }).core (t.due env) :=
        { h' with
          numbered := h.numbered.filter _
          bounded := fun send hs => h.bounded send (List.mem_of_mem_filter hs)
          idle := fun hi => ⟨(h.idle hi).1, by simp [(h.idle hi).2]⟩ }
      exact hf.congr (fun a _ => due_emit ..) rfl rfl rfl rfl rfl rfl rfl

theorem onDelivered (h : Tracking m lost t.core (t.due env)) (message : InboundMessage) :
    Tracking m lost (t.onDelivered k message).core ((t.onDelivered k message).due env) := by
  unfold Turn.onDelivered
  split
  · split
    · exact h
    · dsimp only
      split_ifs
      · exact h.congr (fun a _ => due_notify ..) rfl rfl rfl rfl rfl rfl rfl
      · exact h.congr (fun a _ => due_notify ..) rfl rfl rfl rfl rfl rfl rfl
      · exact h.congr (fun a _ => due_notify ..) rfl rfl rfl rfl rfl rfl rfl
  · exact h

theorem acknowledge (h : Tracking m lost t.core (t.due env)) (delivery : PendingDelivery) :
    Tracking m lost (t.acknowledge delivery).core ((t.acknowledge delivery).due env) := by
  unfold Turn.acknowledge
  split
  · exact h.congr (fun a _ => due_emit ..) rfl rfl rfl rfl rfl rfl rfl
  · exact h

theorem onConfirm (h : Tracking m lost t.core (t.due env)) (id : ConfirmationId)
    (promise : PromiseId) :
    Tracking m lost (t.onConfirm id promise).core ((t.onConfirm id promise).due env) := by
  unfold Turn.onConfirm
  split
  · exact h.congr (fun a _ => due_emit ..) rfl rfl rfl rfl rfl rfl rfl
  · next tracked _ =>
    have hu : Tracking m lost (t.update fun c =>
        { c with confirmations := c.confirmations.filter (·.id ≠ id) }).core (t.due env) :=
      { h with }
    exact (hu.acknowledge (t := t.update _) tracked.delivery).congr (fun a _ => due_emit ..)
      rfl rfl rfl rfl rfl rfl rfl

/-- A steady signal is handled so that the marks of the phase stay true. -/
theorem handle_steady {x : Signal} (hx : x.isSteady)
    (hc : Control t.core.phase.marks t.core.course (t.due env))
    (h : Tracking t.core.phase.marks lost t.core d)
    (hd : ∀ a, d a = t.due env a + x.awaited.count a)
    (hlost : ∀ k topic result, x = .subscribed k topic result → Outcome.isRetryable result →
      lost k topic) :
    Tracking t.core.phase.marks lost (t.handle x).core ((t.handle x).due env) := by
  have hsame : x.awaited = [] → d = t.due env := fun hn => funext fun a => by rw [hd, hn]; rfl
  cases x with
  | work w => obtain rfl := hsame rfl; exact h.onWork hc w
  | sent k id result => exact h.onSent hd
  | subscribed k topic result => exact onSubscribed hc h hd (hlost k topic result rfl)
  | unsubscribed k topic result => exact onUnsubscribed hc h hd
  | delivered k message => obtain rfl := hsame rfl; exact h.onDelivered message
  | confirm id promise => obtain rfl := hsame rfl; exact h.onConfirm id promise
  | autoConfirm delivery => obtain rfl := hsame rfl; exact h.acknowledge delivery
  | _ => cases hx

end Answers

end Tracking

end PubSub
