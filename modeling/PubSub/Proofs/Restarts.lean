import PubSub.Proofs.Confirms
import PubSub.Proofs.Renewals

/-! # Restarted means every subscription is back

From the moment a connection is opened to reconnect, every row of that moment
is being renewed, is renewed, or is gone. The client says that it has restarted
once none of them is being renewed any more, and what makes it say so was
posted for these renewals.
-/

namespace PubSub

open Turn

/-- What has become of a row since its connection was opened. -/
inductive Renewed {ℓ : Type} (k : ConnectionId) (moves : List (Move ℓ)) (issued : List Effect)
    (rows : Subscriptions) (row : Subscription) : Prop where
  | succeeded (answered : .answer (.subscribed k row.topic) (.ok ()) ∈ moves)
    (handled : .take (.subscribed k row.topic (.ok ())) ∈ moves)
    (established : rows.find? row.topic = some row.renewed)
    (settled : ∀ p ∈ row.awaiting, .settle p (.ok ()) ∈ issued)
  | failed (e : ClientError) (final : e.isRetryable = false)
    (answered : .answer (.subscribed k row.topic) (.error e) ∈ moves)
    (handled : .take (.subscribed k row.topic (.error e)) ∈ moves)
    (gone : rows.find? row.topic = none)
    (settled : ∀ p ∈ row.promises, .settle p (.error e) ∈ issued)

theorem Renewed.mono {ℓ : Type} {k : ConnectionId} {moves moves' : List (Move ℓ)}
    {issued issued' : List Effect} {rows rows' : Subscriptions} {row : Subscription}
    (h : Renewed k moves issued rows row) (hm : ∀ m ∈ moves, m ∈ moves')
    (hi : ∀ e ∈ issued, e ∈ issued') (hr : rows'.find? row.topic = rows.find? row.topic) :
    Renewed k moves' issued' rows' row := by
  cases h with
  | succeeded ha ht hf hs =>
    exact .succeeded (hm _ ha) (hm _ ht) (hr.trans hf) fun p hp => hi _ (hs p hp)
  | failed e he ha ht hf hs =>
    exact .failed e he (hm _ ha) (hm _ ht) (hr.trans hf) fun p hp => hi _ (hs p hp)

theorem Renewed.of_renews {ℓ : Type} {k : ConnectionId} {moves : List (Move ℓ)}
    {issued : List Effect} {c : Core} {row : Subscription} {result : Outcome} {t : Turn}
    (hrow : row.Broken) (h : Renews c row.remake result t)
    (ha : .answer (.subscribed k row.topic) result ∈ moves)
    (ht : .take (.subscribed k row.topic result) ∈ moves) (hi : ∀ e ∈ t.effects, e ∈ issued) :
    Renewed k moves issued t.core.subscriptions row := by
  have hremake := hrow.remake_eq
  cases result with
  | ok =>
    obtain ⟨hrows, hsettled⟩ := h.succeeded rfl
    refine .succeeded ha ht ?_ fun p hp => hi _ (hsettled p (by rw [hremake]; exact hp))
    rw [hrows, hrow.renewed_remake, Subscriptions.find?_put]
    exact if_pos rfl
  | error e =>
    obtain ⟨hrows, hsettled⟩ := h.failed e rfl
    refine .failed e h.final ha ht ?_ fun p hp => hi _ (hsettled p (by rw [hremake]; exact hp))
    rw [hrows, Subscription.topic_remake, Subscriptions.find?_erase, if_pos rfl]

/-- The renewal of a row leaves the others in their places. -/
theorem Renews.find?_of_ne {c : Core} {row : Subscription} {result : Outcome} {t : Turn}
    (h : Renews c row result t) {topic : Topic} (hne : topic ≠ row.topic) :
    t.core.subscriptions.find? topic = c.subscriptions.find? topic := by
  cases result with
  | ok =>
    rw [(h.succeeded rfl).1, Subscriptions.find?_put]
    exact if_neg (Ne.symm hne)
  | error e => rw [(h.failed e rfl).1, Subscriptions.find?_erase, if_neg hne]

theorem Renews.exists_mem {c : Core} {row row' : Subscription} {result : Outcome} {t : Turn}
    (h : Renews c row result t) (hr : row' ∈ t.core.subscriptions) :
    ∃ old ∈ c.subscriptions, old.topic = row'.topic := by
  cases result with
  | ok =>
    rw [(h.succeeded rfl).1] at hr
    rcases Subscriptions.mem_put hr with rfl | hr
    · exact ⟨row, (Subscriptions.find?_eq_some h.tracked).1, rfl⟩
    · exact ⟨row', hr, rfl⟩
  | error e =>
    rw [(h.failed e rfl).1] at hr
    exact ⟨row', (Subscriptions.mem_erase.mp hr).1, rfl⟩

namespace System

variable {ℓ : Type} {u s s' : System ℓ} {past between : List (Move ℓ)} {k : ConnectionId}

/-- Since the connection was opened, the rows of that time are renewed on it. -/
structure Renewing (k : ConnectionId) (u : System ℓ) (between : List (Move ℓ)) (s : System ℓ) :
    Prop where
  connection : s.client.core.connection = some k
  requested : (s.issued between).filter Effect.transmits =
    u.client.core.subscriptions.map fun row => .request (.subscribe k row.params)
  rows : ∀ row ∈ u.client.core.subscriptions,
    s.client.core.subscriptions.find? row.topic = some row.remake ∨
      Renewed k between (s.issued between) s.client.core.subscriptions row
  only : ∀ row ∈ s.client.core.subscriptions,
    ∃ old ∈ u.client.core.subscriptions, old.topic = row.topic
  answered : ∀ topic result, .subscribed k topic result ∈ s.client.mailbox.waiting →
    .answer (.subscribed k topic) result ∈ between
  posted : .subscriptionsRemade ∈ s.client.mailbox.waiting →
    .perform (.post .subscriptionsRemade) ∈ between

/-- The system as it was when a connection was opened to reconnect. -/
structure Reopening (k : ConnectionId) (u : System ℓ) : Prop where
  connection : u.client.core.connection = some k
  broken : ∀ row ∈ u.client.core.subscriptions, row.Broken
  unposted : .subscriptionsRemade ∉ u.client.mailbox.waiting

namespace Renewing

theorem begin (hr : Reached past u) (hs : u.step (.take (.opened k (.ok ()))) = some s)
    (hp : u.client.core.phase ≠ .remaking) (hp' : s.client.core.phase = .remaking) :
    u.Reopening k ∧ Renewing k u [] s := by
  obtain ⟨hd, hown⟩ := hr.coherent.beside_take hs
  have hsound := hr.coherent.sound
  obtain ⟨-, rest, hw, rfl⟩ := step_take hs
  obtain ⟨k', hx, hk, hk', hbroken, hremade, hrows, hrequests⟩ :=
    hsound.remake_handle hd (fun hl => (hown hl).1) hp hp'
  injection hx with hx
  subst hx
  have hunposted : .subscriptionsRemade ∉ u.client.mailbox.waiting := by
    intro hm
    have hpos : 0 < u.due .remade := by
      rw [due_own u (.inr rfl)]
      exact List.count_pos_iff.mpr (List.mem_flatMap.mpr
        ⟨_, List.mem_append_left _ hm, List.mem_singleton_self _⟩)
    omega
  refine ⟨⟨hk, hbroken, hunposted⟩, hk', ?requested, ?rows, ?only, ?answered, ?posted⟩
  case requested => simpa [issued, System.begin] using hrequests
  case rows =>
    intro row hrow
    refine .inl ?_
    simp only [System.begin, hrows, Subscriptions.remake]
    rw [Subscriptions.find?_map Subscription.topic_remake,
      hsound.tracking.sorted.find?_of_mem hrow]
    rfl
  case only =>
    intro row hrow
    simp only [System.begin, hrows, Subscriptions.remake, List.mem_map] at hrow
    obtain ⟨old, hold, rfl⟩ := hrow
    exact ⟨old, hold, (Subscription.topic_remake old).symm⟩
  case answered =>
    -- Nothing was asked on the connection for a row before.
    intro topic result hm
    have hpos : 0 < u.due (.reply (.subscribed k topic)) := by
      have hmem : .reply (.subscribed k topic) ∈ u.client.mailbox.waiting.flatMap Signal.awaited :=
        List.mem_flatMap.mpr ⟨_, hw ▸ List.mem_cons_of_mem _ hm, List.mem_singleton_self _⟩
      exact List.count_pos_iff.mpr (List.mem_append_left _ (List.mem_append_right _ hmem))
    have hlinked := hsound.tracking.linked rfl k hk topic
    have hzero := hlinked.subscribed_eq_zero fun row hrow => by
      simp [(hbroken row (Subscriptions.find?_eq_some hrow).1).state]
    omega
  case posted =>
    intro hm
    exact absurd (hw ▸ List.mem_cons_of_mem _ hm) hunposted

theorem move (h : Renewing k u between s) {m : Move ℓ} (hs : s.step m = some s')
    (hm : ∀ x, m ≠ .take x) (hc : s.Coherent past) : Renewing k u (between ++ [m]) s' := by
  have hissued : s'.issued (between ++ [m]) = s.issued between := issued_step hs hm
  constructor <;> try rw [core_step hs hm]
  case connection => exact h.connection
  case requested =>
    rw [hissued]
    exact h.requested
  case rows =>
    intro row hrow
    rw [hissued]
    exact (h.rows row hrow).imp id fun hr =>
      hr.mono (fun _ => List.mem_append_left _) (fun _ => id) rfl
  case only => exact h.only
  case answered =>
    intro topic result hx
    rw [waiting_step hs hm, List.mem_append, List.mem_append] at hx
    rcases hx with (hx | hx) | hx
    · exact List.mem_append_left _ (h.answered topic result hx)
    · obtain ⟨result', he, rfl⟩ :=
        (of_mem_brought hx).2.2 (.subscribed k topic) (List.mem_singleton_self _)
      cases he
      exact List.mem_append_right _ (List.mem_singleton_self _)
    · cases hc.isOwn_of_performed hs hx
  case posted =>
    intro hx
    rw [waiting_step hs hm, List.mem_append, List.mem_append] at hx
    rcases hx with (hx | hx) | hx
    · exact List.mem_append_left _ (h.posted hx)
    · cases (of_mem_brought hx).1
    · obtain ⟨e, he, hx⟩ := List.mem_flatMap.mp hx
      refine List.mem_append_right _ (List.mem_singleton.mpr ?_)
      cases m with
      | perform e' =>
        obtain rfl := List.mem_singleton.mp he
        cases e with
        | post x =>
          obtain rfl := List.mem_singleton.mp hx
          rfl
        | _ => cases hx
      | _ => cases he

theorem rows_renews (h : Renewing k u between s)
    (hb : ∀ row ∈ u.client.core.subscriptions, row.Broken) {row' : Subscription} {result : Outcome}
    {t : Turn} (hr : Renews s.client.core row' result t)
    (hx : .subscribed k row'.topic result ∈ s.client.mailbox.waiting) :
    ∀ row ∈ u.client.core.subscriptions, t.core.subscriptions.find? row.topic = some row.remake ∨
      Renewed k (between ++ [.take (.subscribed k row'.topic result)])
        (s.issued between ++ t.effects) t.core.subscriptions row := by
  intro row hrow
  by_cases ht : row.topic = row'.topic
  · -- The row is still the one that is being renewed.
    have hrow' : row' = row.remake := by
      have hfind := hr.tracked
      rw [← ht] at hfind
      rcases h.rows row hrow with hremake | ⟨-, -, hrenewed, -⟩ | ⟨_, -, -, -, hgone, -⟩
      · exact Option.some.inj (hfind.symm.trans hremake)
      · obtain rfl := Option.some.inj (hfind.symm.trans hrenewed)
        cases hr.remaking
      · cases hfind.symm.trans hgone
    subst hrow'
    refine .inr (.of_renews (hb row hrow) hr ?_ ?_ fun _ => List.mem_append_right _) <;> rw [ht]
    · exact List.mem_append_left _ (h.answered _ _ hx)
    · exact List.mem_append_right _ (List.mem_singleton_self _)
  · have hfind := hr.find?_of_ne ht
    exact (h.rows row hrow).imp hfind.trans fun hrenewed =>
      hrenewed.mono (fun _ => List.mem_append_left _) (fun _ => List.mem_append_left _) hfind

theorem take (hr : Reached past s) (h : Renewing k u between s) {x : Signal}
    (hs : s.step (.take x) = some s') (hp : s.client.core.phase = .remaking)
    (hp' : s'.client.core.phase = .remaking)
    (hb : ∀ row ∈ u.client.core.subscriptions, row.Broken) :
    Renewing k u (between ++ [.take x]) s' := by
  have hissued : s'.issued (between ++ [.take x]) = _ := issued_take hs
  obtain ⟨hd, hown⟩ := hr.coherent.beside_take hs
  have hsound := hr.coherent.sound
  obtain ⟨-, rest, hw, rfl⟩ := step_take hs
  obtain ⟨hturn, hconnection⟩ := hsound.renews_handle hd (fun hl => (hown hl).1) hp hp'
  have hsilent : ((s.client.core.handle x).effects).filter Effect.transmits = [] := by
    rw [List.filter_eq_nil_iff]
    intro e he
    rcases hturn with hrests | ⟨_, _, _, -, -, hrenews⟩
    · simp [hrests.silent e he]
    · simp [hrenews.silent e he]
  have hwaiting (y : Signal) (hy : y ∈ rest) : y ∈ s.client.mailbox.waiting :=
    hw ▸ List.mem_cons_of_mem _ hy
  refine ⟨hconnection.trans h.connection, ?requested, ?rows, ?only, ?answered, ?posted⟩
  case requested =>
    rw [hissued, List.filter_append, hsilent, List.append_nil]
    exact h.requested
  case rows =>
    rw [hissued]
    rcases hturn with hrests | ⟨k', row', result, rfl, hk', hrenews⟩
    · have hsame : (s.client.core.handle x).core.subscriptions = _ := hrests.subscriptions
      simp only [System.begin, hsame]
      exact fun row hrow => (h.rows row hrow).imp id fun hr =>
        hr.mono (fun _ => List.mem_append_left _) (fun _ => List.mem_append_left _) rfl
    · obtain rfl : k' = k := Option.some.inj (hk'.symm.trans h.connection)
      exact h.rows_renews hb hrenews (hw ▸ List.mem_cons_self ..)
  case only =>
    intro row hrow
    rcases hturn with hrests | ⟨_, _, _, -, -, hrenews⟩
    · exact h.only row (hrests.subscriptions ▸ hrow)
    · obtain ⟨old, hold, htopic⟩ := hrenews.exists_mem hrow
      obtain ⟨older, holder, holdest⟩ := h.only old hold
      exact ⟨older, holder, holdest.trans htopic⟩
  case answered =>
    intro topic result hy
    exact List.mem_append_left _ (h.answered topic result (hwaiting _ hy))
  case posted =>
    intro hy
    exact List.mem_append_left _ (h.posted (hwaiting _ hy))

end Renewing

end System

/-- The rows are being renewed since their connection was opened. -/
theorem Reached.renewing {ℓ : Type} {past : List (Move ℓ)} {s : System ℓ} (h : Reached past s)
    (hp : s.client.core.phase = .remaking) :
    ∃ start k between u, past = start ++ .take (.opened k (.ok ())) :: between ∧
      Reached start u ∧ u.Reopening k ∧ System.Renewing k u between s := by
  refine h.turn_induction (P := fun past s => s.client.core.phase = .remaking →
    ∃ start k between u, past = start ++ .take (.opened k (.ok ())) :: between ∧
      Reached start u ∧ u.Reopening k ∧ System.Renewing k u between s)
    (fun _ _ hp => by cases hp) ?_ ?_ hp
  · intro past s m s' hr ih hs hm hp'
    rw [System.core_step hs hm] at hp'
    obtain ⟨start, k, between, u, rfl, hu, hopen, hrenewing⟩ := ih hp'
    exact ⟨start, k, between ++ [m], u, by simp, hu, hopen, hrenewing.move hs hm hr.coherent⟩
  · intro past s x s' hr ih hs hp'
    by_cases hp : s.client.core.phase = .remaking
    · obtain ⟨start, k, between, u, rfl, hu, hopen, hrenewing⟩ := ih hp
      exact ⟨start, k, between ++ [.take x], u, by simp, hu, hopen,
        hrenewing.take hr hs hp hp' hopen.broken⟩
    · obtain ⟨hd, hown⟩ := hr.coherent.beside_take hs
      obtain ⟨k, rfl⟩ : ∃ k, x = .opened k (.ok ()) := by
        obtain ⟨-, rest, -, rfl⟩ := System.step_take hs
        obtain ⟨k, hx, -⟩ := hr.coherent.sound.remake_handle hd (fun hl => (hown hl).1) hp hp'
        exact ⟨k, hx⟩
      obtain ⟨hopen, hrenewing⟩ := System.Renewing.begin hr hs hp hp'
      exact ⟨past, k, [], s, rfl, hr, hopen, hrenewing⟩

theorem Handles.restart {c : Core} {env : Awaited → Nat} {x : Signal} (h : Handles c env x)
    (he : .notify .restarted ∈ (c.handle x).effects) :
    x = .subscriptionsRemade ∧ c.phase = .remaking ∧
      (∃ t, c.Performs x .notifyRestarted t ∧ t.core.subscriptions = c.subscriptions) ∧
      ∃ told more, (c.handle x).effects = told ++ .notify .restarted :: more ∧
        (∀ e ∈ told, e.transmits = false ∧ e ≠ .notify .restarted) ∧ .notify .restarted ∉ more := by
  rcases h.mem_effects he with ⟨-, hs⟩ | ⟨state, hs⟩ | ⟨a, t, hp, hi, -, -⟩
  · cases hs
  · cases hs
  · have hnotify : a = .notifyRestarted := by
      cases a <;> first | rfl | cases hi
    subst hnotify
    obtain ⟨trigger, next, before, after, ht, hn, rfl⟩ := id hp
    obtain ⟨rfl, hphase, rfl, rfl, rfl⟩ := Phase.eq_of_notifyRestarted hn
    have hx : x = .subscriptionsRemade := by
      cases Signal.trigger?_eq_some_iff.mp ht with
      | subscriptionsRemade => rfl
    subst hx
    refine ⟨rfl, hphase, ⟨_, hp, ?_⟩, ?_⟩
    · simp [perform, Signal.prepare]
    · -- The kept work is done again after the notification.
      have hturn := Core.handle_of_transition ht hn
      obtain ⟨es, hes, hwork⟩ := issues_replayPending (t :=
        ((c.entering .subscriptionsRemade .started).settleStarts (.ok ())).notify .restarted)
        (by simp)
      refine ⟨.publish .started :: c.pendingStarts.map (.settle · (.ok ())), es, ?_, ?_, ?_⟩
      · rw [hturn]
        simp only [List.singleton_append, List.foldl_cons, List.foldl_nil, perform, hes,
          effects_notify, effects_settleStarts, Core.effects_entering, Core.core_entering]
        simp [Signal.prepare, Phase.view]
      · simp only [List.mem_cons, List.mem_map]
        rintro e (rfl | ⟨p, -, rfl⟩) <;> exact ⟨rfl, by simp⟩
      · intro hm
        cases hwork _ hm

/-- The client renews everything between the opening of a connection and its word that it has
restarted. -/
structure System.Restarts {ℓ : Type} (k : ConnectionId) (between rest : List (Move ℓ))
    (u v : System ℓ) : Prop where
  opened : u.client.core.connection = some k
  current : v.client.core.connection = some k
  sorted : u.client.core.subscriptions.Sorted
  /-- Nothing is asked of the server but one subscribe for each row, in the order of the topics. -/
  requested : ((between ++ rest).flatMap Move.performed).filter Effect.transmits =
    u.client.core.subscriptions.map fun row => .request (.subscribe k row.params)
  renewed : ∀ row ∈ u.client.core.subscriptions,
    Renewed k between (between.flatMap Move.performed) v.client.core.subscriptions row
  only : ∀ row ∈ v.client.core.subscriptions,
    ∃ old ∈ u.client.core.subscriptions, old.topic = row.topic
  /-- What makes the client tell was not under way before the opening. -/
  posted : .subscriptionsRemade ∉ u.client.mailbox.waiting ∧
    .perform (.post .subscriptionsRemade) ∈ between
  /-- At the moment of the word the rows are still those at the beginning of the turn. -/
  told : ∃ t, v.client.core.Performs .subscriptionsRemade .notifyRestarted t ∧
    t.core.subscriptions = v.client.core.subscriptions

/-- What is behind the word of a client that it has restarted. -/
structure System.RestartsKept {ℓ : Type} (past : List (Move ℓ)) (s : System ℓ) : Prop where
  restarted : ∀ before later, past = before ++ .perform (.notify .restarted) :: later →
    ∃ start k between rest u v, before = start ++ .take (.opened k (.ok ())) ::
        (between ++ .take .subscriptionsRemade :: rest) ∧ (∀ x, .take x ∉ rest) ∧
      Reached start u ∧ Reached (start ++ .take (.opened k (.ok ())) :: between) v ∧
      Restarts k between rest u v
  /-- The count of the renewals under way is exact, so that it never falls below zero. -/
  counted : s.client.core.remakesOutstanding =
    s.client.core.subscriptions.countP (·.remaking)
  positive : ∀ row ∈ s.client.core.subscriptions, row.remaking →
    0 < s.client.core.remakesOutstanding
  /-- An answer of another connection changes nothing and makes the client tell nothing. -/
  stale : ∀ k topic result, ¬ s.client.core.isCurrent k →
    s.client.core.handle (.subscribed k topic result) = .begin s.client.core

namespace Reached

variable {ℓ : Type} {s : System ℓ} {past before later : List (Move ℓ)}

theorem restarts (h : Reached (before ++ .perform (.notify .restarted) :: later) s) :
    ∃ start k between rest u v, before = start ++ .take (.opened k (.ok ())) ::
        (between ++ .take .subscriptionsRemade :: rest) ∧ (∀ x, .take x ∉ rest) ∧
      Reached start u ∧ Reached (start ++ .take (.opened k (.ok ())) :: between) v ∧
      System.Restarts k between rest u v := by
  obtain ⟨earlier, x, rest, more, v, w, rfl, hrest, hv, hx, he⟩ := h.of_perform
  obtain ⟨hd, hown⟩ := hv.coherent.beside_take hx
  have hsound := hv.coherent.sound
  obtain ⟨rfl, hphase, htold, told, more', heffects, hsilent, hmore⟩ :=
    (hsound.handles hd fun hl => (hown hl).1).restart (by rw [he]; simp)
  obtain ⟨start, k, between, u, rfl, hu, hopen, hrenewing⟩ := hv.renewing hphase
  obtain ⟨hagenda, waiting, hw, -⟩ := System.step_take hx
  have hperformed : v.issued between = between.flatMap Move.performed := by
    rw [System.issued, hagenda, List.append_nil]
  -- The word is told once in the turn, after effects that ask nothing of the server.
  have hrests : rest.flatMap Move.performed = told := by
    have hnotin : .notify .restarted ∉ told := fun hm => (hsilent _ hm).2 rfl
    exact ((List.append_cons_inj_of_notMem hnotin hmore).mp (heffects.symm.trans he)).1.symm
  have hdone : v.client.core.subscriptions.countP (·.remaking) = 0 := by
    have hremade := hsound.tracking.remade
    rw [Phase.marks, hphase] at hremade
    have hremade : v.due .remade = if v.client.core.remakesOutstanding = 0 then 1 else 0 := hremade
    have hone := hd .remade
    simp only [Signal.awaited, List.count_singleton_self] at hone
    rw [← hsound.tracking.renewals]
    split at hremade <;> omega
  refine ⟨start, k, between, rest, u, v, by simp, hrest, hu, hv, hopen.connection,
    hrenewing.connection, hu.coherent.sound.tracking.sorted, ?_, ?_, hrenewing.only,
    ⟨hopen.unposted, hrenewing.posted (hw ▸ List.mem_cons_self ..)⟩, htold⟩
  · rw [List.flatMap_append, List.filter_append, hrests, ← hperformed, hrenewing.requested,
      List.filter_eq_nil_iff.mpr, List.append_nil]
    intro e hm
    simp [(hsilent e hm).1]
  · intro row hrow
    rw [← hperformed]
    refine (hrenewing.rows row hrow).resolve_left fun hfind => ?_
    have hremaking := (hopen.broken row hrow).remake.remaking
    exact List.countP_eq_zero.mp hdone _ (Subscriptions.find?_eq_some hfind).1 hremaking

theorem restarts_kept (h : Reached past s) : s.RestartsKept past := by
  have htracking := h.coherent.sound.tracking
  constructor
  · rintro before later rfl
    exact h.restarts
  · exact htracking.renewals
  · intro row hrow hr
    rw [htracking.renewals, List.countP_pos_iff]
    exact ⟨row, hrow, hr⟩
  · intro k topic result hk
    simp only [Core.handle, Turn.handle, onSubscribed, core_begin, hk]
    rfl

/-- A run in which a subscription outlives its connection and is renewed on the next one. -/
def renewNews : List (Move Unit) :=
  let params : SubscribeParams :=
    { topic := ⟨"news", none⟩, qos := .atLeastOnce, credit := 1, autoConfirm := false
      ttlSeconds := 0 }
  subscribeByHand ++ ([.disconnect ⟨1⟩ (.network "lost"),
    .take (.disconnected ⟨1⟩ (.network "lost")), .perform (.publish .retrying),
    .perform .takeDrain, .perform (.notify (.retrying (some (.network "lost")))),
    .perform (.request .lookup), .answerLookup (.ok (.found default)),
    .take (.endpointAnswered (.ok (.found default))), .perform (.publish .retrying),
    .perform (.request (.connect ⟨2⟩ default)), .answer (.opened ⟨2⟩) (.ok ()),
    .take (.opened ⟨2⟩ (.ok ())), .perform (.publish .retrying),
    .perform (.request (.report default)), .perform (.request (.subscribe ⟨2⟩ params)),
    .answer (.subscribed ⟨2⟩ params.topic) (.ok ()),
    .take (.subscribed ⟨2⟩ params.topic (.ok ())), .perform (.post .subscriptionsRemade),
    .take .subscriptionsRemade, .perform (.publish .started), .perform (.notify .restarted)] :
    List (Move Unit))

set_option maxRecDepth 8000 in
theorem restarts_kept_renewNews :
    ∃ s, Reached renewNews s ∧ s.client.core.phase = .started ∧
      s.client.core.subscriptions.map (·.state) = [.established] ∧ s.RestartsKept renewNews := by
  have hr : ∃ s, (System.new "" 1).run renewNews = some s ∧ s.client.core.phase = .started ∧
      s.client.core.subscriptions.map (·.state) = [.established] := ⟨_, rfl, rfl, rfl⟩
  obtain ⟨s, hs, hp, hstate⟩ := hr
  exact ⟨s, ⟨"", 1, hs⟩, hp, hstate, restarts_kept ⟨"", 1, hs⟩⟩

end Reached

end PubSub
