import PubSub.Proofs.Calls
import PubSub.Proofs.Promises
import PubSub.Proofs.Traffic

/-! # What becomes of sends

The traffic of a run undergoes what the traffic of its turns does. What every
turn keeps about the traffic therefore holds of the run: each attempt has a
number of its own, a send is in one place until it is over, and one without a
guarantee is attempted once.
-/

namespace PubSub

namespace Traffic

variable {d : Traffic} {given : List SendRequest}

structure Valid (given : List SendRequest) (d : Traffic) : Prop where
  wire : d.wire = d.attempts.map (·.transmission)
  numbered : d.attempts.map (·.id) = List.range' 1 d.sends
  current : d.outstanding.Sublist d.attempts
  kept : ∀ r ∈ d.kept, r ∈ given
  attempted : ∀ send ∈ d.attempts, send.request ∈ given
  /-- Every send is kept, outstanding or finished. -/
  counted : ∀ p, (d.kept.map (·.promise)).count p +
      (d.outstanding.map (·.request.promise)).count p + (d.finished.map (·.1)).count p =
    (given.map (·.promise)).count p
  /-- A send without a guarantee is not kept any more once it is attempted. -/
  once : ∀ r, r.message.qos = .atMostOnce →
    (d.attempts.map (·.request)).count r + d.kept.count r ≤ given.count r

/-- The sends that are not over. -/
def inHand (d : Traffic) : List SendRequest := d.kept ++ d.outstanding.map (·.request)

theorem inHand_interrupt {r : SendRequest} (hr : r ∈ d.interrupt.kept) : r ∈ d.inHand := by
  rcases List.mem_append.mp hr with hr | hr
  · exact List.mem_append_right _ ((List.filter_sublist.map _).subset hr)
  · exact List.mem_append_left _ hr

namespace Valid

theorem ordered (h : d.Valid given) : d.outstanding.Pairwise (·.id < ·.id) := by
  have hids : (d.attempts.map (·.id)).Pairwise (· < ·) := by
    rw [h.numbered]
    exact List.pairwise_lt_range' 1 Nat.one_pos
  exact (List.pairwise_map.mp hids).sublist h.current

theorem outstanding (h : d.Valid given) {send : OutstandingSend} (hs : send ∈ d.outstanding) :
    send ∈ d.attempts := h.current.subset hs

theorem keep (h : d.Valid given) (r : SendRequest) : (d.keep r).Valid (given ++ [r]) where
  wire := h.wire
  numbered := h.numbered
  current := h.current
  kept := by
    intro q hq
    rcases List.mem_append.mp hq with hq | hq
    · exact List.mem_append_left _ (h.kept q hq)
    · exact List.mem_append_right _ hq
  attempted := fun send hs => List.mem_append_left _ (h.attempted send hs)
  counted := by
    intro p
    have := h.counted p
    simp only [Traffic.keep, List.map_append, List.count_append]
    omega
  once := by
    intro q hq
    have := h.once q hq
    simp only [Traffic.keep, List.count_append]
    omega

theorem finish (h : d.Valid given) (r : SendRequest) (result : Outcome) :
    (d.finish r.promise result).Valid (given ++ [r]) where
  wire := h.wire
  numbered := h.numbered
  current := h.current
  kept := fun q hq => List.mem_append_left _ (h.kept q hq)
  attempted := fun send hs => List.mem_append_left _ (h.attempted send hs)
  counted := by
    intro p
    have := h.counted p
    simp only [Traffic.finish, List.map_append, List.map_cons, List.map_nil, List.count_append]
    omega
  once := by
    intro q hq
    have := h.once q hq
    rw [List.count_append]
    exact this.trans (Nat.le_add_right ..)

theorem pass {rs : List SendRequest} (k : ConnectionId)
    (h : ({ d with kept := d.kept ++ rs } : Traffic).Valid given) : (d.pass k rs).Valid given where
  wire := by
    have hwire : d.wire = d.attempts.map (·.transmission) := h.wire
    simp only [Traffic.pass, List.map_append, hwire]
  numbered := by
    have hnumbered : d.attempts.map (·.id) = List.range' 1 d.sends := h.numbered
    simp only [Traffic.pass, List.map_append, hnumbered, OutstandingSend.id_batch]
    rw [Nat.add_comm d.sends 1, List.range'_append_1]
  current := h.current.append (List.Sublist.refl _)
  kept := fun r hr => h.kept r (List.mem_append_left _ hr)
  attempted := by
    intro send hs
    rcases List.mem_append.mp hs with hs | hs
    · exact h.attempted send hs
    · have hr := List.mem_map_of_mem (f := OutstandingSend.request) hs
      rw [OutstandingSend.request_batch] at hr
      exact h.kept _ (List.mem_append_right _ hr)
  counted := by
    intro p
    have hp := h.counted p
    have hbatch : (OutstandingSend.batch k d.sends rs).map (·.request.promise) =
        rs.map (·.promise) := by
      rw [← OutstandingSend.request_batch k d.sends rs, List.map_map]
      simp
    simp only [Traffic.pass, List.map_append, List.count_append, hbatch] at hp ⊢
    omega
  once := by
    intro r hr
    have hp := h.once r hr
    simp only [Traffic.pass, List.map_append, List.count_append,
      OutstandingSend.request_batch] at hp ⊢
    omega

theorem answer (h : d.Valid given) {send : OutstandingSend}
    (hf : d.outstanding.find? (·.id = send.id) = some send) (result : Outcome) :
    (d.answer send result).Valid given where
  wire := h.wire
  numbered := h.numbered
  current := List.filter_sublist.trans h.current
  kept := h.kept
  attempted := h.attempted
  counted := by
    intro p
    have hp := h.counted p
    have hout := Turn.count_outstanding (p := p) h.ordered hf
    simp only [Traffic.answer, List.map_append, List.map_cons, List.map_nil, List.count_append]
    omega
  once := h.once

theorem inHand (h : d.Valid given) : ∀ r ∈ d.inHand, r ∈ given := by
  intro r hr
  rcases List.mem_append.mp hr with hr | hr
  · exact h.kept r hr
  · obtain ⟨send, hs, rfl⟩ := List.mem_map.mp hr
    exact h.attempted send (h.outstanding hs)

theorem count_strong {sends : List OutstandingSend} {r : SendRequest}
    (hr : r.message.qos = .atMostOnce) :
    ((sends.filter (!·.isWeak)).map (·.request)).count r = 0 := by
  rw [List.count_eq_zero]
  intro hm
  obtain ⟨send, hs, rfl⟩ := List.mem_map.mp hm
  simp [OutstandingSend.isWeak, hr] at hs

theorem interrupt (h : d.Valid given) : d.interrupt.Valid given where
  wire := h.wire
  numbered := h.numbered
  current := List.nil_sublist _
  kept := by
    exact fun r hr => h.inHand r (inHand_interrupt hr)
  attempted := h.attempted
  counted := by
    intro p
    have hp := h.counted p
    have hsplit := ((List.filter_append_perm (fun send : OutstandingSend => send.isWeak)
      d.outstanding).map (·.request.promise)).count_eq p
    simp only [List.map_append, List.count_append] at hsplit
    simp only [Traffic.interrupt, List.map_append, List.map_map, Function.comp_def,
      List.count_append, List.map_nil, List.count_nil]
    omega
  once := by
    intro r hr
    have hp := h.once r hr
    simp only [Traffic.interrupt, List.count_append, count_strong hr]
    omega

theorem close (h : d.Valid given) : d.close.Valid given where
  wire := h.wire
  numbered := h.numbered
  current := List.nil_sublist _
  kept := nofun
  attempted := h.attempted
  counted := by
    intro p
    have hp := h.counted p
    simp only [Traffic.close, List.map_append, List.map_map, Function.comp_def, List.count_append,
      List.map_nil, List.count_nil]
    omega
  once := fun r hr => (Nat.le_add_right ..).trans (h.once r hr)

end Valid

section Finished

variable {p : PromiseId} {result : Outcome}

/-- The promise is that of a send that is over if the connection is lost. -/
def Loses (d : Traffic) (p : PromiseId) (result : Outcome) : Prop :=
  ∃ send ∈ d.outstanding, send.isWeak ∧ send.request.promise = p ∧ result = .ok ()

/-- The promise is that of a send in hand, which the end of the session fails. -/
def Drops (d : Traffic) (p : PromiseId) (result : Outcome) : Prop :=
  ∃ r ∈ d.inHand, r.promise = p ∧ result = .error .clientStopped

theorem mem_finished_finish {q : PromiseId} {result' : Outcome} (hd : (p, result) ∉ d.finished)
    (h : (p, result) ∈ (d.finish q result').finished) : q = p ∧ result' = result := by
  have he := List.mem_singleton.mp ((List.mem_append.mp h).resolve_left hd)
  injection he with hp hr
  exact ⟨hp.symm, hr.symm⟩

theorem mem_finished_interrupt (h : (p, result) ∈ d.interrupt.finished) :
    (p, result) ∈ d.finished ∨ d.Loses p result := by
  refine (List.mem_append.mp h).imp id fun h => ?_
  obtain ⟨send, hm, he⟩ := List.mem_map.mp h
  injection he with hp hr
  exact ⟨send, List.mem_of_mem_filter hm, (List.mem_filter.mp hm).2, hp, hr.symm⟩

theorem mem_finished_close (h : (p, result) ∈ d.close.finished) :
    (p, result) ∈ d.finished ∨ d.Loses p result ∨ d.Drops p result := by
  simp only [close, List.mem_append, or_assoc, List.mem_map] at h
  refine h.imp id fun h => ?_
  rcases h with ⟨send, hm, he⟩ | ⟨r, hm, he⟩
  · injection he with hp hr
    split at hr
    · next hweak => exact .inl ⟨send, hm, hweak, hp, hr.symm⟩
    · exact .inr ⟨_, List.mem_append_right _ (List.mem_map_of_mem hm), hp, hr.symm⟩
  · injection he with hp hr
    exact .inr ⟨r, List.mem_append_left _ hm, hp, hr.symm⟩

theorem drops_of_interrupt (h : d.interrupt.Drops p result) : d.Drops p result := by
  obtain ⟨r, hr, hp, he⟩ := h
  refine ⟨r, inHand_interrupt ?_, hp, he⟩
  exact (List.mem_append.mp hr).resolve_right List.not_mem_nil

end Finished

def after {ℓ : Type} (past : List (Move ℓ)) : Traffic :=
  (turns past).foldl (fun d t => (t.1.handle t.2).traffic.since d) (Core.traffic {})

section

variable {ℓ : Type} {past : List (Move ℓ)} {m : Move ℓ}

theorem after_take (past : List (Move ℓ)) (x : Signal) :
    after (past ++ [.take x]) = ((Core.after past).handle x).traffic.since (after past) := by
  simp [after, turns_take]

theorem after_of_ne_take (past : List (Move ℓ)) (hm : ∀ x, m ≠ .take x) :
    after (past ++ [m]) = after past := by
  rw [after, turns_of_ne_take past hm, after]

/-- What is in hand after a run is what the core has in hand. -/
theorem since_after (past : List (Move ℓ)) :
    (Core.after past).traffic.since (after past) = after past := by
  induction past using List.reverseRecOn with
  | nil => rfl
  | append_singleton past m ih =>
    by_cases hm : ∀ x, m ≠ .take x
    · rw [Core.after_of_ne_take past hm, after_of_ne_take past hm, ih]
    · obtain ⟨x, rfl⟩ : ∃ x, m = .take x := by simpa using hm
      rw [Core.after_take, after_take]
      simp [Traffic.since, Core.traffic, Turn.traffic, Turn.begin, Turn.effects]

theorem kept_after (past : List (Move ℓ)) :
    (after past).kept = (Core.after past).pendingWork.filterMap Work.send? :=
  (congrArg Traffic.kept (since_after past)).symm

theorem outstanding_after (past : List (Move ℓ)) :
    (after past).outstanding = (Core.after past).outstanding :=
  (congrArg Traffic.outstanding (since_after past)).symm

end

end Traffic

theorem Carries.valid {c : Core} {x : Signal} {d d' : Traffic} {given : List SendRequest}
    (h : Carries c x d d') (hd : d.Valid given) : d'.Valid (given ++ x.send?.toList) := by
  have hplain (hx : x.isPlain) : given ++ x.send?.toList = given := by
    simp [Signal.send?_of_isPlain hx]
  cases h with
  | leaves hx => simpa [hx] using hd
  | keeps hx => exact hx ▸ hd.keep _
  | refuses hx policy => exact hx ▸ hd.finish _ _
  | passes hx policy current => exact hx ▸ (hd.keep _).pass _
  | answers hx found final => exact hx ▸ (List.append_nil given).symm ▸ hd.answer found _
  | interrupts hx => exact (hplain hx).symm ▸ hd.interrupt
  | closes performs => exact (hplain performs.isPlain).symm ▸ hd.close
  | interruptsAndCloses performs => exact (hplain performs.isPlain).symm ▸ hd.interrupt.close
  | resumes performs current => exact (hplain performs.isPlain).symm ▸ hd.pass _

theorem Signal.count_le {x : Signal} {p : PromiseId} (hp : p ∈ x.promises) (xs : List Signal) :
    xs.count x ≤ (xs.flatMap Signal.promises).count p := by
  induction xs with
  | nil => exact Nat.le_refl 0
  | cons y ys ih =>
    rw [List.flatMap_cons, List.count_append, List.count_cons]
    split
    · next he =>
      obtain rfl := eq_of_beq he
      have := List.count_pos_iff.mpr hp
      omega
    · omega

namespace Effect

def Completes (e : Effect) (p : PromiseId) (result : Outcome) : Prop :=
  e = .settle p result ∨ e = .finishSend p result

/-- The effect completes the promise, which is not that of a send. -/
def settles (p : PromiseId) : Effect → Bool
  | settle q _ => q = p
  | _ => false

theorem count_settled_le (p : PromiseId) (es : List Effect) :
    (es.flatMap settled).count p ≤ (es.flatMap promises).count p := by
  induction es with
  | nil => exact Nat.le_refl 0
  | cons e es ih =>
    simp only [List.flatMap_cons, List.count_append, e.promises_eq]
    omega

theorem count_settled (p : PromiseId) (es : List Effect) : (es.flatMap settled).count p =
    ((es.filterMap finished?).map (·.1)).count p + es.countP (·.settles p) := by
  induction es with
  | nil => rfl
  | cons e es ih =>
    rw [List.flatMap_cons, List.count_append, ih, List.countP_cons, List.filterMap_cons]
    cases e with
    | settle q result =>
      simp only [settled, finished?, settles, List.count_singleton, beq_iff_eq, decide_eq_true_eq]
      omega
    | finishSend q result =>
      have hnot : settles p (.finishSend q result) = false := rfl
      simp only [settled, finished?, hnot, List.map_cons, List.count_cons, List.count_nil,
        Bool.false_eq_true, if_false]
      omega
    | _ => simp [settled, finished?, settles]

end Effect

def sendsHandled {ℓ : Type} (past : List (Move ℓ)) : List SendRequest :=
  (handled past).filterMap Signal.send?

inductive SendEnds {ℓ : Type} (earlier : List (Move ℓ)) (x : Signal) (r : SendRequest) : Outcome → Prop
  /-- The transport has answered an attempt that was still outstanding. -/
  | answered {send : OutstandingSend} {result : Outcome} (request : send.request = r)
    (outstanding : send ∈ (Core.after earlier).outstanding)
    (passed : .perform send.transmission ∈ earlier)
    (answered : .answer (.sent send.connection send.id) result ∈ earlier)
    (signal : x = .sent send.connection send.id result)
    (final : Outcome.isRetryable result = false) : SendEnds earlier x r result
  /-- The connection of an attempt is lost, and there is no guarantee. -/
  | lost {send : OutstandingSend} (request : send.request = r)
    (weak : r.message.qos = .atMostOnce)
    (outstanding : send ∈ (Core.after earlier).outstanding)
    (passed : .perform send.transmission ∈ earlier) : SendEnds earlier x r (.ok ())
  | rejected (signal : x = .work (.send r))
    (policy : (Core.after earlier).phase.view.work = .reject) :
    SendEnds earlier x r (.error .clientStopped)
  | stopped {t : Turn} (cleanup : (Core.after earlier).Performs x .cleanup t) :
    SendEnds earlier x r (.error .clientStopped)

namespace Reached

variable {ℓ : Type} {s s' : System ℓ} {past : List (Move ℓ)} {x : Signal}

theorem carries_core (h : Reached past s) (hs : s.step (.take x) = some s') :
    Carries (Core.after past) x (Core.after past).traffic ((Core.after past).handle x).traffic := by
  rw [← h.core_eq]
  exact (h.handles hs).carries h.stemsFrom

theorem carries (h : Reached past s) (hs : s.step (.take x) = some s') :
    Carries (Core.after past) x (.after past) (.after (past ++ [.take x])) := by
  rw [Traffic.after_take]
  conv in (Traffic.after past) => rw [← Traffic.since_after past]
  exact (h.carries_core hs).since (Traffic.after past)

theorem sendsHandled_take (past : List (Move ℓ)) (x : Signal) :
    sendsHandled (past ++ [.take x]) = sendsHandled past ++ x.send?.toList := by
  cases hx : x.send? <;> simp [sendsHandled, handled_take, hx]

theorem sendsHandled_of_ne_take (past : List (Move ℓ)) {m : Move ℓ} (hm : ∀ x, m ≠ .take x) :
    sendsHandled (past ++ [m]) = sendsHandled past := by
  rw [sendsHandled, sendsHandled, handled_of_ne_take past hm]

theorem traffic (h : Reached past s) : (Traffic.after past).Valid (sendsHandled past) := by
  refine h.turn_induction
    (P := fun past _ => (Traffic.after past).Valid (sendsHandled past)) ?_ ?_ ?_
  · intro _ _
    exact ⟨rfl, rfl, .slnil, nofun, nofun, fun _ => rfl, fun _ _ => Nat.le_refl 0⟩
  · intro past s m s' hr ih hs hm
    rwa [Traffic.after_of_ne_take past hm, sendsHandled_of_ne_take past hm]
  · intro past s x s' hr ih hs
    rw [sendsHandled_take]
    exact (hr.carries hs).valid ih

theorem issued_traffic (h : Reached past s) :
    (Traffic.after past).wire = (s.issued past).filter (·.isSend) ∧
      (Traffic.after past).finished = (s.issued past).filterMap Effect.finished? := by
  refine h.turn_induction (P := fun past s =>
    (Traffic.after past).wire = (s.issued past).filter (·.isSend) ∧
      (Traffic.after past).finished = (s.issued past).filterMap Effect.finished?)
    (fun _ _ => ⟨rfl, rfl⟩) ?_ ?_
  · intro past s m s' hr ih hs hm
    rwa [Traffic.after_of_ne_take past hm, System.issued_step hs hm]
  · intro past s x s' hr ih hs
    rw [Traffic.after_take, System.issued_take hs, hr.core_eq, List.filter_append,
      List.filterMap_append, ← ih.1, ← ih.2]
    simp [Traffic.since, Turn.traffic, Turn.effects, List.filterMap_map]

theorem passed (h : Reached past s) (ha : s.agenda = []) {send : OutstandingSend}
    (hs : send ∈ (Core.after past).outstanding) : .perform send.transmission ∈ past := by
  rw [← Traffic.outstanding_after] at hs
  have hwire : send.transmission ∈ (Traffic.after past).wire := by
    rw [h.traffic.wire]
    exact List.mem_map_of_mem (h.traffic.outstanding hs)
  rw [h.issued_traffic.1, System.issued, ha, List.append_nil] at hwire
  exact mem_performed.mp (List.mem_of_mem_filter hwire)

theorem answered_sent (h : Reached past s) {k : ConnectionId} {id : Nat} {result : Outcome}
    (hm : .sent k id result ∈ s.client.mailbox.waiting) : .answer (.sent k id) result ∈ past := by
  obtain ⟨result', he, ha⟩ := h.coherent.answered _ (List.mem_append_left _ hm) (.sent k id)
    (List.mem_singleton_self _)
  cases he
  exact ha

/-- Every end of a send in a turn has its explanation. -/
theorem ends (h : Reached past s) (hs : s.step (.take x) = some s') {p : PromiseId}
    {result : Outcome} (he : .finishSend p result ∈ ((Core.after past).handle x).effects) :
    ∃ r ∈ sendsHandled (past ++ [.take x]), r.promise = p ∧ SendEnds past x r result := by
  obtain ⟨ha, rest, hw, -⟩ := System.step_take hs
  have hvalid := h.traffic
  have hcarries := h.carries_core hs
  have hfinished : (p, result) ∈ ((Core.after past).handle x).traffic.finished := by
    obtain ⟨i, hi, he⟩ := List.mem_map.mp he
    exact List.mem_filterMap.mpr ⟨i, hi, by simp [he, Effect.finished?]⟩
  have hheld : ∀ r ∈ (Core.after past).traffic.inHand, r ∈ sendsHandled (past ++ [.take x]) := by
    intro r hr
    rw [sendsHandled_take]
    refine List.mem_append_left _ (hvalid.inHand r ?_)
    rwa [Traffic.inHand, Traffic.kept_after, Traffic.outstanding_after]
  have hout : ∀ send ∈ (Core.after past).outstanding,
      send.request ∈ (Core.after past).traffic.inHand := fun send hm =>
    List.mem_append_right _ (List.mem_map_of_mem hm)
  have hlost : (Core.after past).traffic.Loses p result →
      ∃ r ∈ sendsHandled (past ++ [.take x]), r.promise = p ∧ SendEnds past x r result := by
    rintro ⟨send, hm, hweak, rfl, rfl⟩
    have hqos : send.request.message.qos = .atMostOnce := by
      simpa [OutstandingSend.isWeak] using hweak
    exact ⟨_, hheld _ (hout send hm), rfl, .lost rfl hqos hm (h.passed ha hm)⟩
  have hstopped {t : Turn} (performs : (Core.after past).Performs x .cleanup t) :
      (Core.after past).traffic.Drops p result →
      ∃ r ∈ sendsHandled (past ++ [.take x]), r.promise = p ∧ SendEnds past x r result := by
    rintro ⟨r, hr, rfl, rfl⟩
    exact ⟨r, hheld r hr, rfl, .stopped performs⟩
  have hnone : (p, result) ∉ (Core.after past).traffic.finished := List.not_mem_nil
  have hcore : (Core.after past).traffic.outstanding = (Core.after past).outstanding := rfl
  generalize (Core.after past).traffic = d at *
  generalize ((Core.after past).handle x).traffic = d' at *
  cases hcarries with
  | leaves | keeps | passes | resumes => exact absurd hfinished hnone
  | @refuses r hx policy =>
    obtain ⟨rfl, rfl⟩ := Traffic.mem_finished_finish hnone hfinished
    refine ⟨r, ?_, rfl, .rejected hx policy⟩
    rw [sendsHandled_take, hx]
    exact List.mem_append_right _ (List.mem_singleton_self r)
  | @answers send result' hx found final =>
    obtain ⟨rfl, rfl⟩ := Traffic.mem_finished_finish hnone hfinished
    have hm : send ∈ (Core.after past).outstanding := hcore ▸ List.mem_of_find?_eq_some found
    refine ⟨_, hheld _ (hout send hm), rfl, .answered rfl hm (h.passed ha hm) ?_ hx final⟩
    exact h.answered_sent (hw ▸ hx ▸ List.mem_cons_self ..)
  | interrupts hx =>
    exact hlost ((Traffic.mem_finished_interrupt hfinished).resolve_left hnone)
  | closes performs =>
    exact ((Traffic.mem_finished_close hfinished).resolve_left hnone).elim hlost
      (hstopped performs)
  | interruptsAndCloses performs =>
    rcases Traffic.mem_finished_close hfinished with hm | hm | hm
    · exact hlost ((Traffic.mem_finished_interrupt hm).resolve_left hnone)
    · obtain ⟨send, hm, -⟩ := hm
      exact absurd hm List.not_mem_nil
    · exact hstopped performs (Traffic.drops_of_interrupt hm)

theorem count_sendsHandled (past : List (Move ℓ)) (r : SendRequest) :
    (sendsHandled past).count r = (handled past).count (.work (.send r)) := by
  rw [sendsHandled, List.count_filterMap, List.count]
  refine List.countP_congr fun x _ => ?_
  simp [Signal.send?_eq_some]

theorem mem_sendsHandled {past : List (Move ℓ)} {r : SendRequest} :
    r ∈ sendsHandled past ↔ .work (.send r) ∈ handled past := by
  rw [← List.count_pos_iff, count_sendsHandled, List.count_pos_iff]

theorem nodup_sendsHandled (h : Reached past s) : (sendsHandled past).Nodup := by
  rw [List.nodup_iff_count]
  intro r
  rw [count_sendsHandled]
  have hcount := Signal.count_le (x := .work (.send r)) (p := r.promise)
    (List.mem_singleton_self _) (handled past)
  have honce := List.nodup_iff_count.mp h.given.once r.promise
  rw [System.posted, List.flatMap_append, List.count_append] at honce
  omega

theorem eq_of_promise (h : Reached past s) {q r : SendRequest} (hq : q ∈ sendsHandled past)
    (hr : .work (.send r) ∈ s.posted past) (hp : q.promise = r.promise) : q = r := by
  have heq := h.given.eq_of_mem (p := r.promise) (List.mem_append_left _ (mem_sendsHandled.mp hq))
    hr (by simp [Signal.promises, Work.promise, hp]) (by simp [Signal.promises, Work.promise])
  injection heq with heq
  injection heq

theorem count_posted (h : Reached past s) (hx : Called past x) : (s.posted past).count x = 1 := by
  have hpos := List.count_pos_iff.mpr (h.given.complete x hx)
  obtain ⟨seen, call, p, -, rfl⟩ := hx
  have hle := Signal.count_le (p := p) (x := call.signal p) (by simp [call.promises_signal])
    (s.posted past)
  have honce := List.nodup_iff_count.mp h.given.once p
  omega

/-- A send that was called for waits, is kept or outstanding, or is over. -/
theorem count_send (h : Reached past s) {r : SendRequest} (hr : Called past (.work (.send r))) :
    s.client.mailbox.waiting.count (.work (.send r)) +
      s.client.core.pendingWork.count (.send r) +
      (s.client.core.outstanding.map (·.request)).count r +
      (((s.issued past).filterMap Effect.finished?).map (·.1)).count r.promise = 1 := by
  have hvalid := h.traffic
  have hposted := h.given.complete _ hr
  have hcount (qs : List SendRequest) (hqs : ∀ q ∈ qs, q ∈ sendsHandled past) :
      (qs.map (·.promise)).count r.promise = qs.count r := by
    rw [List.count, List.countP_map]
    refine List.countP_congr fun q hq => ?_
    simp only [Function.comp_apply, beq_iff_eq]
    exact ⟨fun hp => h.eq_of_promise (hqs q hq) hposted hp, fun he => he ▸ rfl⟩
  have hkept : (Traffic.after past).kept.count r = s.client.core.pendingWork.count (.send r) := by
    rw [Traffic.kept_after, h.core_eq, List.count_filterMap, List.count]
    refine List.countP_congr fun w _ => ?_
    simp [Work.send?_eq_some]
  have hout : ((Traffic.after past).outstanding.map (·.request.promise)).count r.promise =
      (s.client.core.outstanding.map (·.request)).count r := by
    rw [Traffic.outstanding_after, h.core_eq, ← hcount, List.map_map]
    · rfl
    · intro q hq
      obtain ⟨send, hs, rfl⟩ := List.mem_map.mp hq
      rw [← Traffic.outstanding_after] at hs
      exact hvalid.attempted send (hvalid.outstanding hs)
  have hlaw := hvalid.counted r.promise
  have hone := h.count_posted hr
  rw [System.posted, List.count_append, ← count_sendsHandled] at hone
  rw [hcount _ hvalid.kept, hcount _ (fun _ => id), hkept, hout, h.issued_traffic.2] at hlaw
  omega

theorem finished_eq (h : Reached past s) {r : SendRequest} (hr : Called past (.work (.send r))) :
    (((s.issued past).filterMap Effect.finished?).map (·.1)).count r.promise =
        settlements past r.promise + (s.agenda.flatMap Effect.settled).count r.promise ∧
      ∀ result, .settle r.promise result ∉ s.issued past := by
  have hone := h.count_send hr
  have htotal := h.conserved.total r.promise
  have hlt : r.promise < s.client.promises.length := by
    obtain ⟨seen, call, p, hcall, hx⟩ := hr
    have hp : [r.promise] = [p] := call.promises_signal p ▸ hx ▸ rfl
    injection hp with hp
    exact hp ▸ h.given.bounded seen call p hcall
  have hwaiting := Signal.count_le (x := .work (.send r)) (p := r.promise)
    (List.mem_singleton_self _) s.client.mailbox.waiting
  have hkept : s.client.core.pendingWork.count (.send r) ≤
      (s.client.core.pendingWork.map Work.promise).count r.promise :=
    List.count_le_count_map (f := Work.promise) (x := .send r)
  have hout : (s.client.core.outstanding.map (·.request)).count r ≤
      (s.client.core.outstanding.map (·.request.promise)).count r.promise := by
    have := List.count_le_count_map (l := s.client.core.outstanding.map (·.request))
      (f := SendRequest.promise) (x := r)
    rwa [List.map_map] at this
  have hagenda : (s.agenda.flatMap Effect.settled).count r.promise ≤
      (s.agenda.flatMap Effect.promises).count r.promise :=
    Effect.count_settled_le r.promise s.agenda
  have hsettled : settlements past r.promise + (s.agenda.flatMap Effect.settled).count r.promise =
      ((s.issued past).flatMap Effect.settled).count r.promise := by
    rw [System.issued, List.flatMap_append, List.count_append, List.flatMap_assoc]
    rfl
  have hcount := Effect.count_settled r.promise (s.issued past)
  rw [if_pos hlt] at htotal
  simp only [System.owed, System.held, List.count_append, Core.count_held] at htotal
  refine ⟨by omega, fun result hm => ?_⟩
  have hpos : 0 < (s.issued past).countP (·.settles r.promise) :=
    List.countP_pos_iff.mpr ⟨_, hm, by simp [Effect.settles]⟩
  omega

end Reached

structure System.SendsKept {ℓ : Type} (past : List (Move ℓ)) (s : System ℓ) : Prop where
  /-- What the transport is asked to send are the attempts, in order. -/
  wire : (s.issued past).filter (·.isSend) =
    (Traffic.after past).attempts.map (·.transmission)
  numbered : ((Traffic.after past).attempts.map (·.id)).Nodup
  called : ∀ send ∈ (Traffic.after past).attempts, Called past (.work (.send send.request))
  once : ∀ r : SendRequest, r.message.qos = .atMostOnce →
    ((Traffic.after past).attempts.map (·.request)).count r ≤ 1
  /-- The turn that completes the promise of a send tells why it does. -/
  ended : ∀ r, Called past (.work (.send r)) → ∀ before e later result,
    past = before ++ .perform e :: later → e.Completes r.promise result →
    ∃ earlier x rest, before = earlier ++ .take x :: rest ∧ (∀ y, .take y ∉ rest) ∧
      SendEnds earlier x r result
  /-- Neither a lost connection nor its errors decide about a send with a guarantee. -/
  undecided : ∀ r, Called past (.work (.send r)) → r.message.qos = .atLeastOnce →
    ∀ earlier x later, past = earlier ++ .take x :: later →
      (∃ k cause, x = .disconnected k cause) ∨
        (∃ k id result, x = .sent k id result ∧ Outcome.isRetryable result) →
      ∀ result, .finishSend r.promise result ∈ ((Core.after earlier).handle x).effects →
        result = .error .clientStopped ∧ ∃ t, (Core.after earlier).Performs x .cleanup t
  /-- Until its promise is completed, a send is in one place. -/
  placed : ∀ r, Called past (.work (.send r)) →
    s.client.mailbox.waiting.count (.work (.send r)) +
      s.client.core.pendingWork.count (.send r) +
      (s.client.core.outstanding.map (·.request)).count r +
      (s.agenda.flatMap Effect.settled).count r.promise + settlements past r.promise = 1

namespace Reached

variable {ℓ : Type} {s : System ℓ} {past : List (Move ℓ)}

theorem ends_of_called (h : Reached past s) {r : SendRequest}
    (hr : Called past (.work (.send r))) {earlier later : List (Move ℓ)} {x : Signal}
    (hpast : past = earlier ++ .take x :: later) {result : Outcome}
    (he : .finishSend r.promise result ∈ ((Core.after earlier).handle x).effects) :
    SendEnds earlier x r result := by
  subst hpast
  obtain ⟨u, v, hu, hs⟩ := h.of_append_cons
  obtain ⟨q, hq, hp, hends⟩ := hu.ends hs he
  have hq : q ∈ sendsHandled (earlier ++ .take x :: later) := by
    rw [mem_sendsHandled] at hq ⊢
    rw [List.append_cons, handled, List.flatMap_append]
    exact List.mem_append_left _ hq
  exact h.eq_of_promise hq (h.given.complete _ hr) hp ▸ hends

theorem sends_kept (h : Reached past s) : s.SendsKept past := by
  have hvalid := h.traffic
  constructor
  · rw [← h.issued_traffic.1, hvalid.wire]
  · rw [hvalid.numbered]
    exact List.nodup_range'
  · intro send hs
    have hposted : .work (.send send.request) ∈ s.posted past :=
      List.mem_append_left _ (mem_sendsHandled.mp (hvalid.attempted send hs))
    exact (h.given.called _ hposted).resolve_left (List.cons_ne_nil _ _)
  · intro r hr
    have hle := hvalid.once r hr
    have hgiven := List.nodup_iff_count.mp h.nodup_sendsHandled r
    omega
  · rintro r hr before e later result rfl he
    have hissued : e ∈ s.issued (before ++ .perform e :: later) :=
      List.mem_append_left _ (mem_performed.mpr (by simp))
    obtain rfl := he.resolve_left fun hsettle =>
      (h.finished_eq hr).2 result (hsettle ▸ hissued)
    obtain ⟨earlier, x, rest, more, u, v, rfl, hrest, hu, hx, heffects⟩ := h.of_perform
    refine ⟨earlier, x, rest, rfl, hrest, h.ends_of_called hr (List.append_assoc ..) ?_⟩
    rw [← hu.core_eq, heffects]
    simp
  · rintro r hr hqos earlier x later hpast hx result he
    cases h.ends_of_called hr hpast he with
    | @answered send result _ _ _ _ signal final =>
      subst signal
      rcases hx with ⟨k, cause, hx⟩ | ⟨k, id, result', hx, hretry⟩ <;> injection hx
      next _ _ hresult => simp [← hresult, final] at hretry
    | lost _ weak => simp [hqos] at weak
    | rejected signal =>
      subst signal
      rcases hx with ⟨k, cause, hx⟩ | ⟨k, id, result', hx, -⟩ <;> cases hx
    | stopped cleanup => exact ⟨rfl, _, cleanup⟩
  · intro r hr
    have hone := h.count_send hr
    have hfinished := (h.finished_eq hr).1
    omega

/-- A run in which two sends are passed on and the connection is lost: the one is over with it,
the other is sent again. -/
def resend : List (Move Unit) :=
  let weak : SendOptions := { qos := .atMostOnce }
  let strong : SendOptions := { qos := .atLeastOnce }
  let first : OutboundMessage := ⟨"a", .text "first", weak.qos, weak.ttl, weak.properties⟩
  let second : OutboundMessage := ⟨"a", .text "second", strong.qos, strong.ttl, strong.properties⟩
  [.call .stopped .start 0, .take (.start (some 0)), .perform (.publish .starting),
    .perform (.notify .starting), .perform (.request .lookup),
    .answerLookup (.ok (.found default)), .take (.endpointAnswered (.ok (.found default))),
    .perform (.publish .starting), .perform (.request (.connect ⟨1⟩ default)),
    .answer (.opened ⟨1⟩) (.ok ()), .take (.opened ⟨1⟩ (.ok ())), .perform (.publish .started),
    .perform (.request (.report default)), .perform (.settle 0 (.ok ())),
    .perform (.notify .started),
    .call .started (.send "a" (.text "first") weak) 1, .take (.work (.send ⟨first, 1⟩)),
    .perform (.request (.send ⟨1⟩ 1 first)),
    .call .started (.send "a" (.text "second") strong) 2, .take (.work (.send ⟨second, 2⟩)),
    .perform (.request (.send ⟨1⟩ 2 second)),
    .disconnect ⟨1⟩ (.network "lost"), .take (.disconnected ⟨1⟩ (.network "lost")),
    .perform (.publish .retrying), .perform (.finishSend 1 (.ok ())), .perform .takeDrain,
    .perform (.notify (.retrying (some (.network "lost")))), .perform (.request .lookup),
    .answerLookup (.ok (.found default)), .take (.endpointAnswered (.ok (.found default))),
    .perform (.publish .retrying), .perform (.request (.connect ⟨2⟩ default)),
    .answer (.opened ⟨2⟩) (.ok ()), .take (.opened ⟨2⟩ (.ok ())), .perform (.publish .retrying),
    .perform (.request (.report default)), .perform (.post .subscriptionsRemade),
    .take .subscriptionsRemade, .perform (.publish .started), .perform (.notify .restarted),
    .perform (.request (.send ⟨2⟩ 3 second)), .answer (.sent ⟨2⟩ 3) (.ok ()),
    .take (.sent ⟨2⟩ 3 (.ok ())), .perform (.finishSend 2 (.ok ()))]

set_option maxRecDepth 8000 in
theorem sends_kept_resend : ∃ s, Reached resend s ∧ s.AtRest ∧
    (Traffic.after resend).attempts.map (·.request.promise) = [1, 2, 2] ∧
      s.SendsKept resend := by
  have hr : ∃ s, (System.new "" 1).run resend = some s ∧ s.AtRest := ⟨_, rfl, rfl⟩
  obtain ⟨s, hs, ha⟩ := hr
  exact ⟨s, ⟨"", 1, hs⟩, ha, rfl, sends_kept ⟨"", 1, hs⟩⟩

end Reached

end PubSub
