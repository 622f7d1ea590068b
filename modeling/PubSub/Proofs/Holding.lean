import PubSub.Proofs.Sound

/-! # Where promises are held

A promise of the application is held by a signal or by the core until an
effect settles it. What the core holds and what the effects settle is counted,
and every operation of a turn keeps the count, whatever it moves from one place
to another.
-/

namespace PubSub

namespace Signal

def promises : Signal → List PromiseId
  | start p => p.toList
  | stop p => [p]
  | work w => [w.promise]
  | confirm _ p => [p]
  | _ => []

@[simp]
theorem promises_reply (r : Session.Reply) (result : Outcome) :
    (r.signal result).promises = [] := by
  cases r <;> rfl

end Signal

namespace Effect

def settled : Effect → List PromiseId
  | settle p _ => [p]
  | finishSend p _ => [p]
  | _ => []

def promises : Effect → List PromiseId
  | post x => x.promises
  | e => e.settled

end Effect

def Core.held (c : Core) : List PromiseId :=
  c.pendingStarts ++ c.pendingStops ++ c.pendingWork.map Work.promise ++
    c.outstanding.map (·.request.promise) ++ c.subscriptions.flatMap Subscription.promises

theorem Core.count_held (c : Core) (p : PromiseId) : c.held.count p =
    c.pendingStarts.count p + c.pendingStops.count p + (c.pendingWork.map Work.promise).count p +
      (c.outstanding.map (·.request.promise)).count p +
      (c.subscriptions.flatMap Subscription.promises).count p := by
  simp only [held, List.count_append]

namespace Subscriptions

variable {rows : Subscriptions} {row row' : Subscription} {topic : Topic} {p : PromiseId}

/-- In order, and no row that waits for nothing holds an unsubscribe. -/
structure Tidy (rows : Subscriptions) : Prop where
  sorted : rows.Sorted
  idle : ∀ row ∈ rows, row.state = .established → row.unsubscribing = none

theorem Tidy.put (h : rows.Tidy) (hrow : row.state = .established → row.unsubscribing = none) :
    (rows.put row).Tidy := by
  refine ⟨h.sorted.put row, fun r hr => ?_⟩
  rcases mem_put hr with rfl | hr
  · exact hrow
  · exact h.idle r hr

theorem Tidy.erase (h : rows.Tidy) (topic : Topic) : (rows.erase topic).Tidy :=
  ⟨h.sorted.erase topic, fun r hr => h.idle r (mem_erase.mp hr).1⟩

theorem Sorted.count_put (h : rows.Sorted) (hf : rows.find? row'.topic = some row) :
    ((rows.put row').flatMap Subscription.promises).count p + row.promises.count p =
      (rows.flatMap Subscription.promises).count p + row'.promises.count p := by
  rw [((h.put_perm row').flatMap_right _).count_eq, ((h.perm_erase hf).flatMap_right _).count_eq]
  simp only [List.flatMap_cons, List.count_append]
  omega

theorem Sorted.count_put_new (h : rows.Sorted) (row : Subscription)
    (hf : rows.find? row.topic = none) :
    ((rows.put row).flatMap Subscription.promises).count p =
      (rows.flatMap Subscription.promises).count p + row.promises.count p := by
  rw [((h.put_perm row).flatMap_right _).count_eq, erase_of_find?_eq_none hf]
  simp only [List.flatMap_cons, List.count_append]
  omega

theorem Sorted.count_erase (h : rows.Sorted) (hf : rows.find? topic = some row) :
    ((rows.erase topic).flatMap Subscription.promises).count p + row.promises.count p =
      (rows.flatMap Subscription.promises).count p := by
  rw [((h.perm_erase hf).flatMap_right _).count_eq]
  simp only [List.flatMap_cons, List.count_append]
  omega

end Subscriptions

namespace Turn

variable {t t' : Turn} {p : PromiseId}

/-- How often a promise is held by the core or settled by the effects. -/
def owed (t : Turn) (p : PromiseId) : Nat :=
  t.core.held.count p + (t.effects.flatMap Effect.promises).count p

theorem owed_of_effects {es : List Effect} (h : t'.effects = t.effects ++ es) {n : Nat}
    (hc : t'.core.held.count p + (es.flatMap Effect.promises).count p =
      t.core.held.count p + n) : t'.owed p = t.owed p + n := by
  simp only [owed, h, List.flatMap_append, List.count_append]
  omega

@[simp]
theorem owed_begin (c : Core) : (begin c).owed p = c.held.count p := rfl

theorem owed_update (t : Turn) {f : Core → Core} {n : Nat}
    (h : (f t.core).held.count p = t.core.held.count p + n) :
    (t.update f).owed p = t.owed p + n := by
  have he : (t.update f).effects = t.effects ++ [] := by simp
  exact owed_of_effects he (by simpa using h)

@[simp]
theorem owed_emit (t : Turn) (e : Effect) :
    (t.emit e).owed p = t.owed p + e.promises.count p :=
  owed_of_effects (effects_emit t e) (by simp)

@[simp]
theorem owed_notify (t : Turn) (n : Notification) : (t.notify n).owed p = t.owed p := owed_emit ..

@[simp]
theorem owed_request (t : Turn) (r : Request) : (t.request r).owed p = t.owed p := owed_emit ..

@[simp]
theorem owed_settle (t : Turn) (result : Outcome) (q : PromiseId) :
    (t.settle result q).owed p = t.owed p + [q].count p := owed_emit ..

@[simp]
theorem owed_settleAll (t : Turn) (ps : List PromiseId) (result : Outcome) :
    (t.settleAll ps result).owed p = t.owed p + ps.count p := by
  refine owed_of_effects (effects_settleAll t ps result) ?_
  rw [core_settleAll, List.flatMap_map]
  simp [Effect.promises, Effect.settled]

section Work

variable {k : ConnectionId}

@[simp]
theorem owed_reject (t : Turn) (w : Work) (cause : ClientError) :
    (t.reject w cause).owed p = t.owed p + [w.promise].count p := by
  cases w <;> exact owed_emit ..

theorem owed_keep (t : Turn) (w : Work) : (t.keep w).owed p = t.owed p + [w.promise].count p := by
  refine owed_update t ?_
  simp only [Core.count_held, List.map_append, List.map_cons, List.map_nil, List.count_append]
  omega

theorem owed_putRow (t : Turn) (row' : Subscription) {row : Subscription}
    (hs : t.core.subscriptions.Sorted) (hf : t.core.subscriptions.find? row'.topic = some row) :
    (t.putRow row').owed p + row.promises.count p = t.owed p + row'.promises.count p := by
  have hput := hs.count_put (p := p) hf
  simp only [owed, effects_putRow, core_putRow, Core.count_held]
  omega

theorem owed_eraseRow {row : Subscription} (hs : t.core.subscriptions.Sorted)
    (hf : t.core.subscriptions.find? row.topic = some row) :
    (t.eraseRow row.topic).owed p + row.promises.count p = t.owed p := by
  have herase := hs.count_erase (p := p) hf
  simp only [owed, effects_eraseRow, core_eraseRow, Core.count_held]
  omega

theorem owed_putRow_new (hs : t.core.subscriptions.Sorted) {r : SubscribeRequest}
    (hf : t.core.subscriptions.find? r.params.topic = none) :
    (t.putRow (.new r)).owed p = t.owed p + [r.promise].count p := by
  refine owed_update t ?_
  have hput := hs.count_put_new (.new r) (p := p) hf
  have hnew : (Subscription.new r).promises = [r.promise] := rfl
  simp only [Core.count_held, hput, hnew]
  omega

theorem owed_append {row : Subscription} (hs : t.core.subscriptions.Sorted)
    (hf : t.core.subscriptions.find? row.topic = some row) (w : Work) :
    (t.putRow { row with pending := row.pending ++ [w] }).owed p =
      t.owed p + [w.promise].count p := by
  have hput := owed_putRow (p := p) t { row with pending := row.pending ++ [w] } hs hf
  simp only [Subscription.promises, List.map_append, List.map_cons, List.map_nil,
    List.count_append] at hput
  omega

theorem owed_execute (ht : t.core.subscriptions.Tidy) (w : Work) :
    (t.execute w).owed p = t.owed p + [w.promise].count p := by
  have hs := ht.sorted
  unfold execute
  split
  · exact owed_keep t w
  · next k _ =>
    cases w with
    | send r =>
      refine owed_of_effects (effects_executeSend t k r) ?_
      simp only [core_executeSend, Core.count_held, List.map_append, List.map_cons, List.map_nil,
        List.count_append, Work.promise]
      simp [Effect.promises, Effect.settled]
      omega
    | subscribe r =>
      simp only [executeSubscribe]
      split
      · next hf =>
        rw [owed_request, owed_putRow_new hs hf]
        rfl
      · next row hf =>
        obtain ⟨-, htopic⟩ := Subscriptions.find?_eq_some hf
        split
        · exact owed_settle ..
        · exact owed_append hs (htopic ▸ hf) (.subscribe r)
    | unsubscribe r =>
      simp only [executeUnsubscribe]
      split
      · exact owed_settle ..
      · next row hf =>
        obtain ⟨hm, htopic⟩ := Subscriptions.find?_eq_some hf
        split
        · next he =>
          have hnone := ht.idle row hm he.1
          have hput : (t.putRow { row with state := .detaching, unsubscribing := some r }).owed p =
              t.owed p + [r.promise].count p := by
            have hput := owed_putRow (p := p) t
              { row with state := .detaching, unsubscribing := some r } hs (htopic ▸ hf)
            simp only [Subscription.promises, hnone, Option.map_some, Option.map_none,
              Option.toList_some, Option.toList_none, List.count_append, List.count_nil] at hput
            omega
          rw [owed_request, hput]
          rfl
        · exact owed_append hs (htopic ▸ hf) (.unsubscribe r)

theorem tidy_execute (h : t.core.subscriptions.Tidy) (w : Work) :
    (t.execute w).core.subscriptions.Tidy := by
  unfold execute
  split
  · exact h
  · cases w with
    | send r => exact h
    | subscribe r =>
      simp only [executeSubscribe]
      split
      · exact h.put fun hs => absurd hs nofun
      · next row hf =>
        split
        · exact h
        · exact h.put (h.idle row (Subscriptions.find?_eq_some hf).1)
    | unsubscribe r =>
      simp only [executeUnsubscribe]
      split
      · exact h
      · next row hf =>
        split
        · exact h.put fun hs => absurd hs nofun
        · exact h.put (h.idle row (Subscriptions.find?_eq_some hf).1)

theorem owed_onWork (h : t.core.phase.view.work = .accept → t.core.subscriptions.Tidy) (w : Work) :
    (t.onWork w).owed p = t.owed p + [w.promise].count p := by
  unfold onWork
  split
  · exact owed_reject ..
  · exact owed_keep t w
  · next hw => exact owed_execute (h hw) w

theorem tidy_onWork (h : t.core.subscriptions.Tidy) (w : Work) :
    (t.onWork w).core.subscriptions.Tidy := by
  unfold onWork
  split
  · rwa [core_reject]
  · exact h
  · exact tidy_execute h w

theorem owed_replay (h : t.core.subscriptions.Tidy) (ws : List Work) :
    (t.replay ws).owed p = t.owed p + (ws.map Work.promise).count p := by
  induction ws generalizing t with
  | nil => rfl
  | cons w ws ih =>
    have hw := owed_onWork (p := p) (fun _ => h) w
    have hrest := ih (tidy_onWork h w)
    simp only [replay, List.foldl_cons, List.map_cons] at hrest ⊢
    rw [hrest, hw, Nat.add_assoc, ← List.count_append, List.singleton_append]

end Work

section Answers

variable {row : Subscription} {result : Outcome}

/-- Of numbered sends, the one with a number is taken away. -/
theorem count_outstanding {sends : List OutstandingSend} {send : OutstandingSend} {id : Nat}
    (hn : sends.Pairwise (·.id < ·.id)) (hf : sends.find? (·.id = id) = some send) :
    (sends.map (·.request.promise)).count p =
      ((sends.filter (·.id ≠ id)).map (·.request.promise)).count p +
        [send.request.promise].count p := by
  induction sends with
  | nil => cases hf
  | cons a sends ih =>
    obtain ⟨hlt, hn⟩ := List.pairwise_cons.mp hn
    by_cases ha : a.id = id
    · obtain rfl : a = send := by simpa [ha] using hf
      have hrest : sends.filter (·.id ≠ id) = sends := by
        rw [List.filter_eq_self]
        intro b hb
        simpa using fun hbi => absurd (hlt b hb) (by omega)
      rw [List.filter_cons_of_neg (by simp [ha]), hrest, List.map_cons, List.count_cons,
        List.count_singleton]
    · rw [List.find?_cons_of_neg (by simpa using ha)] at hf
      rw [List.filter_cons_of_pos (by simpa using ha), List.map_cons, List.map_cons,
        List.count_cons, List.count_cons, ih hn hf]
      omega

theorem owed_onSent (hn : t.core.outstanding.Pairwise (·.id < ·.id)) (k : ConnectionId) (id : Nat) :
    (t.onSent k id result).owed p = t.owed p := by
  unfold onSent
  split
  · rfl
  · next send hf =>
    split_ifs
    · rfl
    · rfl
    · have hcount := count_outstanding (p := p) hn hf
      rw [finishSend, owed_emit]
      simp only [owed, effects_update, core_update, Core.count_held, Effect.promises,
        Effect.settled]
      omega

@[simp]
theorem owed_remakeSettled (t : Turn) : t.remakeSettled.owed p = t.owed p := by
  refine owed_of_effects (n := 0) (effects_remakeSettled t) ?_
  rw [core_remakeSettled]
  split <;> simp [Core.held, Effect.promises, Signal.promises]

theorem owed_onSubscribedStopping (hs : t.core.subscriptions.Sorted)
    (hf : t.core.subscriptions.find? row.topic = some row) :
    (t.onSubscribedStopping row).owed p = t.owed p := by
  unfold onSubscribedStopping
  split
  · rw [owed_remakeSettled]
    have hput := owed_putRow (p := p) t { row with remaking := false } hs hf
    simpa [Subscription.promises] using hput
  · rfl

theorem owed_onRemade (hs : t.core.subscriptions.Sorted)
    (hf : t.core.subscriptions.find? row.topic = some row) :
    (t.onRemade row result).owed p = t.owed p := by
  cases result with
  | ok =>
    have hput := owed_putRow (p := p) t { row with
      state := .established, establishedOnce := true, remaking := false, awaiting := [] } hs hf
    simp only [Subscription.promises, List.count_append, List.count_nil] at hput
    simp only [onRemade, owed_remakeSettled, owed_settleAll]
    omega
  | error e =>
    have herase := owed_eraseRow (p := p) hs hf
    simp only [onRemade, owed_remakeSettled, owed_notify, owed_settleAll]
    omega

/-- The work that waited for the first answer of a row is done after it. -/
theorem owed_onAttached (h : t.core.subscriptions.Tidy)
    (hf : t.core.subscriptions.find? row.topic = some row) (hrow : row.Attaching) :
    (t.onAttached row result).owed p = t.owed p := by
  have hpromises : row.promises = row.subscribing.toList ++ row.pending.map Work.promise := by
    simp [Subscription.promises, hrow.awaiting, hrow.unsubscribing]
  cases result with
  | ok =>
    let row' : Subscription :=
      { row with
        state := .established, establishedOnce := true, subscribing := none, pending := [] }
    have hput := owed_putRow (p := p) t row' h.sorted hf
    have hnone : row'.promises = [] := by
      simp [row', Subscription.promises, hrow.awaiting, hrow.unsubscribing]
    have htidy : (t.putRow row').core.subscriptions.Tidy := h.put fun _ => hrow.unsubscribing
    simp only [onAttached]
    rw [owed_replay (by rwa [core_settleAll]), owed_settleAll]
    simp only [hnone, hpromises, List.count_append, List.count_nil] at hput
    exact (Nat.add_assoc ..).trans hput
  | error e =>
    have herase := owed_eraseRow (p := p) h.sorted hf
    simp only [onAttached]
    rw [owed_replay (by rw [core_settleAll]; exact h.erase _), owed_settleAll]
    rw [hpromises, List.count_append] at herase
    exact (Nat.add_assoc ..).trans herase

theorem owed_onDetached (h : t.core.subscriptions.Tidy)
    (hf : t.core.subscriptions.find? row.topic = some row) (hrow : row.Detaching) :
    (t.onDetached row result).owed p = t.owed p := by
  have hpromises : row.promises =
      (row.unsubscribing.map (·.promise)).toList ++ row.pending.map Work.promise := by
    simp [Subscription.promises, hrow.awaiting, hrow.subscribing]
  cases result with
  | ok =>
    have herase := owed_eraseRow (p := p) h.sorted hf
    simp only [onDetached]
    rw [owed_replay (by rw [core_notify, core_settleAll]; exact h.erase _), owed_notify,
      owed_settleAll]
    rw [hpromises, List.count_append] at herase
    exact (Nat.add_assoc ..).trans herase
  | error e =>
    let row' : Subscription :=
      { row with state := .established, unsubscribing := none, pending := [] }
    have hput := owed_putRow (p := p) t row' h.sorted hf
    have hnone : row'.promises = [] := by
      simp [row', Subscription.promises, hrow.awaiting, hrow.subscribing]
    have htidy : (t.putRow row').core.subscriptions.Tidy := h.put fun _ => rfl
    simp only [onDetached]
    rw [owed_replay (by rwa [core_settleAll]), owed_settleAll]
    simp only [hnone, hpromises, List.count_append, List.count_nil] at hput
    exact (Nat.add_assoc ..).trans hput

end Answers

end Turn

end PubSub
