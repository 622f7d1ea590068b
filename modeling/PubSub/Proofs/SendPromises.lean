import PubSub.Proofs.Confirms
import PubSub.Proofs.Traffic

/-! # The promises of sends

The promise of a send that has not ended is held where sends are: by the signal
of the send, among the kept and the outstanding sends, or by the effect that
ends the send. It is held there once, and no other promise is held there.
-/

namespace PubSub

open Turn

def Signal.sendPromises (x : Signal) : List PromiseId := x.send?.toList.map (·.promise)

def Effect.sendPromises (e : Effect) : List PromiseId := e.finished?.toList.map (·.1)

namespace Move

variable {ℓ : Type}

def given : Move ℓ → List PromiseId
  | call _ _ p => [p]
  | _ => []

def sendPromises : Move ℓ → List PromiseId
  | call _ (.send ..) p => [p]
  | _ => []

def endedSends (m : Move ℓ) : List PromiseId := m.performed.flatMap Effect.sendPromises

theorem mem_given {m : Move ℓ} {p : PromiseId} :
    p ∈ m.given ↔ ∃ seen call, m = .call seen call p := by
  cases m <;> simp [given, eq_comm]

theorem sendPromises_cases (m : Move ℓ) : m.sendPromises = [] ∨ m.sendPromises = m.given := by
  cases m with
  | call seen call p => cases call <;> simp [sendPromises, given]
  | _ => exact .inl rfl

theorem nodup_given (m : Move ℓ) : m.given.Nodup := by
  cases m <;> simp [given]

end Move

theorem Signal.count_sendPromises_le (x : Signal) (p : PromiseId) :
    x.sendPromises.count p ≤ x.promises.count p := by
  cases hx : x.send? with
  | none => simp [sendPromises, hx]
  | some r =>
    obtain rfl := send?_eq_some.mp hx
    rfl

theorem Effect.count_sendPromises_le (e : Effect) (p : PromiseId) :
    e.sendPromises.count p ≤ e.settled.count p := by
  cases e <;> simp [sendPromises, finished?, settled]

theorem Work.count_promise_send?_le (ws : List Work) (p : PromiseId) :
    ((ws.filterMap Work.send?).map (·.promise)).count p ≤ (ws.map Work.promise).count p := by
  induction ws with
  | nil => exact Nat.le_refl 0
  | cons w ws ih =>
    cases w with
    | send r => simpa [List.count_cons, send?, promise] using ih
    | _ => exact ih.trans (List.count_le_count_cons ..)

theorem Signal.sendPromises_of_promises {x : Signal} (h : x.promises = []) :
    x.sendPromises = [] := by
  refine List.eq_nil_iff_forall_not_mem.mpr fun p hp => ?_
  have hle := x.count_sendPromises_le p
  rw [h, List.count_nil, Nat.le_zero] at hle
  exact absurd hle (List.count_pos_iff.mpr hp).ne'

namespace Traffic

/-- The promises of the sends that are kept, outstanding, or ended in the turn. -/
def promises (d : Traffic) : List PromiseId :=
  d.kept.map (·.promise) ++ d.outstanding.map (·.request.promise) ++ d.finished.map (·.1)

theorem count_promises (d : Traffic) (p : PromiseId) : d.promises.count p =
    (d.kept.map (·.promise)).count p + (d.outstanding.map (·.request.promise)).count p +
      (d.finished.map (·.1)).count p := by
  simp only [promises, List.count_append]

variable {d : Traffic} (p : PromiseId)

theorem count_interrupt : d.interrupt.promises.count p = d.promises.count p := by
  have hsends := ((List.filter_append_perm (·.isWeak) d.outstanding).map
    (·.request.promise)).count_eq p
  simp only [List.map_append, List.count_append] at hsends
  simp only [count_promises, interrupt, List.map_append, List.map_map, Function.comp_def,
    List.count_append, List.map_nil, List.count_nil]
  omega

theorem count_close : d.close.promises.count p = d.promises.count p := by
  simp only [count_promises, close, List.map_append, List.map_map, Function.comp_def,
    List.count_append, List.map_nil, List.count_nil]
  omega

theorem count_pass (k : ConnectionId) (rs : List SendRequest) :
    (d.pass k rs).promises.count p = d.promises.count p + (rs.map (·.promise)).count p := by
  have hbatch : (OutstandingSend.batch k d.sends rs).map (·.request.promise) =
      rs.map (·.promise) := by
    conv_rhs => rw [← OutstandingSend.request_batch k d.sends rs, List.map_map]
    rfl
  simp only [count_promises, pass, List.map_append, List.count_append, hbatch]
  omega

theorem count_answer (hn : d.outstanding.Pairwise (·.id < ·.id)) {send : OutstandingSend}
    (hf : d.outstanding.find? (·.id = send.id) = some send) (result : Outcome) :
    (d.answer send result).promises.count p = d.promises.count p := by
  have hcount := Turn.count_outstanding (p := p) hn hf
  simp only [count_promises, answer, List.map_append, List.count_append, List.map_cons,
    List.map_nil]
  omega

end Traffic

/-- A turn takes the send from its signal, and loses and doubles none. -/
theorem Carries.count_promises {c : Core} {x : Signal} {d d' : Traffic} (h : Carries c x d d')
    (hn : d.outstanding.Pairwise (·.id < ·.id)) (p : PromiseId) :
    d'.promises.count p = d.promises.count p + x.sendPromises.count p := by
  have hplain (hx : x.isPlain) : x.sendPromises = [] := by
    simp [Signal.sendPromises, Signal.send?_of_isPlain hx]
  cases h with
  | leaves hx => simp [Signal.sendPromises, hx]
  | @keeps r hx =>
    subst hx
    have hr : (Signal.work (.send r)).sendPromises = [r].map (·.promise) := rfl
    simp only [Traffic.count_promises, Traffic.keep, List.map_append, List.count_append, hr]
    omega
  | @refuses r hx =>
    subst hx
    simp only [Traffic.count_promises, Traffic.finish, List.map_append, List.count_append]
    exact (Nat.add_assoc ..).symm
  | passes hx =>
    subst hx
    exact Traffic.count_pass ..
  | answers hx found final =>
    subst hx
    exact Traffic.count_answer p hn found _
  | interrupts hx => rw [hplain hx, Traffic.count_interrupt]; rfl
  | closes performs => rw [hplain performs.isPlain, Traffic.count_close]; rfl
  | interruptsAndCloses performs =>
    rw [hplain performs.isPlain, Traffic.count_close, Traffic.count_interrupt]
    rfl
  | resumes performs =>
    rw [hplain performs.isPlain, Traffic.resume, Traffic.count_pass]
    simp only [Traffic.count_promises, List.map_nil, List.count_nil]
    omega

namespace Client

variable {ℓ : Type} {c c' : Client ℓ} {p : PromiseId}

def isOpen (c : Client ℓ) (p : PromiseId) : Bool := c.promises[p]?.any fun q => !q.isDone

theorem isOpen_of_append (h : c'.promises = c.promises ++ [.new]) (p : PromiseId) :
    c'.isOpen p = (c.isOpen p || decide (p = c.promises.length)) := by
  unfold isOpen
  rw [h]
  rcases Nat.lt_trichotomy p c.promises.length with hp | rfl | hp
  · rw [List.getElem?_append_left hp]
    simp [Nat.ne_of_lt hp]
  · simp
  · rw [List.getElem?_eq_none (by simpa using Nat.succ_le_of_lt hp),
      List.getElem?_eq_none (Nat.le_of_lt hp)]
    simp [Nat.ne_of_gt hp]

theorem isOpen_of_set {q : Promise Unit ℓ} (h : c'.promises = c.promises.set p q)
    (hd : q.isDone) (r : PromiseId) : c'.isOpen r = (c.isOpen r && decide (r ≠ p)) := by
  unfold isOpen
  rw [h, List.getElem?_set]
  by_cases hp : p = r
  · subst hp
    by_cases hlt : p < c.promises.length <;> simp [hlt, hd]
  · simp [hp, Ne.symm hp]

end Client

theorem Turn.count_promises (t : Turn) (p : PromiseId) : t.traffic.promises.count p =
    t.core.traffic.promises.count p + (t.effects.flatMap Effect.sendPromises).count p := by
  have hf : t.traffic.finished.map (·.1) = t.effects.flatMap Effect.sendPromises := by
    simp only [traffic, effects, Effect.sendPromises, List.flatMap_map, List.map_flatMap,
      List.filterMap_eq_flatMap_toList]
  simp only [Traffic.count_promises, hf]
  rfl

namespace System

variable {ℓ : Type} {s s' : System ℓ} {past : List (Move ℓ)} {p : PromiseId}

def sendPromises (s : System ℓ) : List PromiseId :=
  s.client.mailbox.waiting.flatMap Signal.sendPromises ++ s.client.core.traffic.promises ++
    s.agenda.flatMap Effect.sendPromises

theorem count_flatMap_le {α : Type} {f g : α → List PromiseId}
    (h : ∀ x, (f x).count p ≤ (g x).count p) (xs : List α) :
    (xs.flatMap f).count p ≤ (xs.flatMap g).count p := by
  induction xs with
  | nil => exact Nat.le_refl 0
  | cons x xs ih =>
    simp only [List.flatMap_cons, List.count_append]
    exact Nat.add_le_add (h x) ih

theorem count_sendPromises_le (s : System ℓ) (p : PromiseId) :
    s.sendPromises.count p ≤ s.owed p := by
  have hwaiting := count_flatMap_le (fun x : Signal => x.count_sendPromises_le p)
    s.client.mailbox.waiting
  have heffect (e : Effect) : e.sendPromises.count p ≤ e.promises.count p := by
    rw [e.promises_eq, List.count_append]
    exact (e.count_sendPromises_le p).trans (Nat.le_add_right ..)
  have hagenda := count_flatMap_le heffect s.agenda
  have hwork := Work.count_promise_send?_le s.client.core.pendingWork p
  have htraffic : s.client.core.traffic.promises.count p =
      ((s.client.core.pendingWork.filterMap Work.send?).map (·.promise)).count p +
        (s.client.core.outstanding.map (·.request.promise)).count p := Traffic.count_promises ..
  simp only [sendPromises, owed, held, List.count_append, Core.count_held, htraffic]
  omega

theorem Conserved.owed_eq (h : Conserved past s) (p : PromiseId) :
    s.owed p = if s.client.isOpen p then 1 else 0 := by
  have ht := h.total p
  cases hq : s.client.promises[p]? with
  | none =>
    rw [if_neg (by simpa using hq)] at ht
    simp only [Client.isOpen, hq, Option.any_none, Bool.false_eq_true, if_false]
    omega
  | some q =>
    rw [if_pos (List.getElem?_eq_some_iff.mp hq).1] at ht
    have hd := h.done p q hq
    simp only [Client.isOpen, hq, Option.any_some]
    cases hdone : q.isDone <;> simp only [hdone] at hd ⊢ <;> grind

/-- The promises of sends are apart from the other promises of a client. -/
structure SendsApart (past : List (Move ℓ)) (sends : List PromiseId) (s : System ℓ) : Prop where
  coherent : s.Coherent past
  conserved : s.Conserved past
  stems : s.client.core.load.StemsFrom fun _ => True
  known : ∀ p ∈ sends, p < s.client.promises.length
  nodup : sends.Nodup
  held : ∀ p, s.sendPromises.count p = if p ∈ sends ∧ s.client.isOpen p then 1 else 0
  /-- No turn tells the application that the window has drained. -/
  quiet : .notify .drain ∉ s.agenda

theorem sendPromises_posted (hc : s.Coherent past) {m : Move ℓ} (hs : s.step m = some s') :
    (s.brought m ++ m.performed.flatMap Effect.posted).flatMap Signal.sendPromises =
      m.sendPromises := by
  cases m with
  | call seen call q => cases call <;> rfl
  | _ =>
    refine List.flatMap_eq_nil_iff.mpr fun x hx => Signal.sendPromises_of_promises ?_
    exact (promises_step hc hs hx).resolve_right (by simp)

/-- Sends come in with the signal of a call, and they go with the effect that ends them. -/
theorem sendPromises_step (hc : s.Coherent past) (hl : s.client.core.load.StemsFrom fun _ => True)
    {m : Move ℓ} (hs : s.step m = some s') :
    (s'.sendPromises ++ m.endedSends).Perm (s.sendPromises ++ m.sendPromises) := by
  rw [List.perm_iff_count]
  intro p
  by_cases hm : ∀ x, m ≠ .take x
  · simp only [sendPromises, Move.endedSends, waiting_step hs hm, core_step hs hm,
      agenda_step hs hm, ← sendPromises_posted hc hs, List.flatMap_append, List.count_append]
    omega
  · obtain ⟨x, rfl⟩ : ∃ x, m = .take x := by simpa using hm
    have hcount := ((hc.handles hs).carries hl).count_promises hc.sound.tracking.numbered p
    obtain ⟨ha, rest, hw, rfl⟩ := step_take hs
    rw [Turn.count_promises] at hcount
    simp only [sendPromises, Move.endedSends, Move.sendPromises, Move.performed, begin, hw, ha,
      List.flatMap_cons, List.flatMap_nil, List.count_append, List.count_nil]
    omega

theorem isOpen_step (h : s.Conserved past) {m : Move ℓ} (hs : s.step m = some s')
    (p : PromiseId) : s'.client.isOpen p =
      ((s.client.isOpen p || m.given.contains p) && !m.settled.contains p) := by
  have hsame (hp : s'.client.promises = s.client.promises) (hg : m.given = [])
      (hm : m.settled = []) : s'.client.isOpen p =
        ((s.client.isOpen p || m.given.contains p) && !m.settled.contains p) := by
    simp [Client.isOpen, hp, hg, hm]
  cases step_eq_some.mp hs with
  | call _ _ hq =>
    subst hq
    rw [Client.isOpen_of_append rfl p]
    simp [Move.given, Move.settled, Move.performed]
  | @listen q l r result hlt hattach =>
    simp only [Client.isOpen, List.getElem?_set, Move.given, Move.settled, Move.performed]
    by_cases hpq : q = p
    · subst hpq
      simp [hlt, Client.isDone_attach hattach]
    · simp [hpq]
  | @perform e rest ha =>
    have hm : (Move.perform e : Move ℓ).settled = e.settled := by
      simp [Move.settled, Move.performed]
    rcases e.settled_cases with he | ⟨q, he⟩
    · exact hsame (Client.promises_perform he) rfl (hm.trans he)
    · have howed := owed_perform ha q
      rw [he, List.count_singleton_self] at howed
      obtain ⟨-, -, r, hr, ho⟩ := h.isOpen (p := q) (by omega)
      obtain ⟨r', hd, hp⟩ := Client.perform_of_open hr ho he
      have hp : (s.perform e rest).client.promises = s.client.promises.set q r' := hp
      rw [Client.isOpen_of_set hp hd, hm, he]
      simp [Move.given]
  | _ => exact hsame rfl rfl rfl

theorem notify_drain_step (hc : s.Coherent past) (h : .notify .drain ∉ s.agenda) {m : Move ℓ}
    (hs : s.step m = some s') : .notify .drain ∉ s'.agenda := by
  by_cases hm : ∀ x, m ≠ .take x
  · rw [agenda_step hs hm] at h
    exact fun he => h (List.mem_append_right _ he)
  · obtain ⟨x, rfl⟩ : ∃ x, m = .take x := by simpa using hm
    have handles := hc.handles hs
    obtain ⟨-, rest, -, rfl⟩ := step_take hs
    intro he
    rcases handles.mem_effects he with ⟨-, he⟩ | ⟨state, he⟩ | ⟨a, -, -, he, -⟩
    · cases he
    · cases he
    · cases a <;> cases he

namespace SendsApart

variable {sends : List PromiseId}

theorem new (id : String) (threshold : Nat) :
    SendsApart [] [] (System.new id threshold : System ℓ) where
  coherent := .new id threshold
  conserved := .new id threshold
  stems := ⟨List.forall_mem_nil _, List.forall_mem_nil _, List.forall_mem_nil _⟩
  known := List.forall_mem_nil _
  nodup := .nil
  held := fun p => by simp [sendPromises, System.new, Client.new, Mailbox.empty, Core.traffic,
    Turn.traffic, Traffic.promises, Turn.begin, Turn.effects]
  quiet := List.not_mem_nil

theorem step (h : SendsApart past sends s) {m : Move ℓ} (hs : s.step m = some s') :
    SendsApart (past ++ [m]) (sends ++ m.sendPromises) s' := by
  have hconserved := h.conserved.step h.coherent hs
  obtain ⟨hlength, hcall⟩ := length_step hs
  have hgiven {p : PromiseId} (hp : p ∈ m.given) : p ∉ sends ∧ p < s'.client.promises.length := by
    obtain ⟨seen, call, rfl⟩ := Move.mem_given.mp hp
    obtain ⟨hq, hlt⟩ := hcall seen call p rfl
    exact ⟨fun hmem => absurd (h.known p hmem) (Nat.not_lt.mpr hq.ge), hlt⟩
  have hsend {p : PromiseId} (hp : p ∈ m.sendPromises) : p ∈ m.given := by
    rcases m.sendPromises_cases with he | he <;> rw [he] at hp
    · cases hp
    · exact hp
  have hstems := h.coherent.stemsFrom h.stems hs fun _ _ => trivial
  refine ⟨h.coherent.step hs, hconserved, hstems, ?_, ?_, fun p => ?_,
    notify_drain_step h.coherent h.quiet hs⟩
  · intro p hp
    exact (List.mem_append.mp hp).elim (fun hp => (h.known p hp).trans_le hlength)
      fun hp => (hgiven (hsend hp)).2
  · refine List.nodup_append'.mpr ⟨h.nodup, ?_, fun p hp hq => (hgiven (hsend hq)).1 hp⟩
    rcases m.sendPromises_cases with he | he <;> rw [he]
    · exact .nil
    · exact m.nodup_given
  · have hperm := (sendPromises_step h.coherent h.stems hs).count_eq p
    have hopen := isOpen_step h.conserved hs p
    rw [List.count_append, List.count_append, h.held p] at hperm
    by_cases hset : p ∈ m.settled
    · -- What is completed is not held any more.
      have hle := s'.count_sendPromises_le p
      rw [hconserved.owed_eq, hopen] at hle
      simpa [hopen, hset] using hle
    · have hended : m.endedSends.count p = 0 := by
        have hle := count_flatMap_le (fun e : Effect => e.count_sendPromises_le p) m.performed
        exact Nat.le_zero.mp (hle.trans_eq (List.count_eq_zero.mpr hset))
      by_cases hg : p ∈ m.given
      · have hnew : m.sendPromises.count p = if p ∈ m.sendPromises then 1 else 0 := by
          split
          · next hp =>
            refine List.count_eq_one_of_mem ?_ hp
            rcases m.sendPromises_cases with he | he <;> rw [he]
            · exact .nil
            · exact m.nodup_given
          · next hp => exact List.count_eq_zero.mpr hp
        simp only [(hgiven hg).1, false_and, if_false, hended, hnew] at hperm
        simpa [hopen, hg, hset, (hgiven hg).1] using hperm
      · have hnone : p ∉ m.sendPromises := mt hsend hg
        rw [hended, List.count_eq_zero.mpr hnone] at hperm
        simpa [hopen, hg, hset, hnone] using hperm

theorem countP_isOpen (h : SendsApart past sends s) :
    sends.countP s.client.isOpen = s.sendPromises.length := by
  rw [List.countP_eq_length_filter]
  refine List.Perm.length_eq (List.perm_iff_count.mpr fun p => ?_)
  rw [h.held p]
  split
  · next hp => exact List.count_eq_one_of_mem (h.nodup.filter _) (List.mem_filter.mpr hp)
  · next hp => exact List.count_eq_zero.mpr fun hm => hp (List.mem_filter.mp hm)

theorem adjust (h : SendsApart past sends s) (window : SendWindow) {jobs : List (Job ℓ)}
    (hj : jobs.flatMap Job.awaited = s.jobs.flatMap Job.awaited) :
    SendsApart past sends
      { s with client := { s.client with window := window }, jobs := jobs } := by
  have hdue : System.due { s with client := { s.client with window := window }, jobs := jobs } =
      s.due := by
    funext a
    simp only [due, awaited, hj]
  exact ⟨⟨hdue ▸ h.coherent.sound, h.coherent.order, h.coherent.posted, h.coherent.answered⟩,
    ⟨h.conserved.total, h.conserved.done⟩, h.stems, h.known, h.nodup, h.held, h.quiet⟩

/-- The sends that are open are those of before and a new one, less one that ends. -/
theorem countP_step (h : SendsApart past sends s) {m : Move ℓ} (hs : s.step m = some s') :
    (sends ++ m.sendPromises).countP s'.client.isOpen + m.endedSends.length =
      sends.countP s.client.isOpen + m.sendPromises.length := by
  have hlength := (sendPromises_step h.coherent h.stems hs).length_eq
  rwa [List.length_append, List.length_append, ← (h.step hs).countP_isOpen,
    ← h.countP_isOpen] at hlength

end SendsApart

end System

end PubSub
