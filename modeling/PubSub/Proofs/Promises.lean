import PubSub.Proofs.Conserved

/-! # Every promise is completed once

A promise that the application was given is either completed, or it is held in
exactly one place: by a signal in the mailbox, by the core, or by an effect
that is going to complete it. A client that is stopped and has nothing to
handle holds no promise any more.
-/

namespace PubSub

def Move.settled {ℓ : Type} (m : Move ℓ) : List PromiseId := m.performed.flatMap Effect.settled

/-- How often a promise has been completed. -/
def settlements {ℓ : Type} (past : List (Move ℓ)) (p : PromiseId) : Nat :=
  (past.flatMap Move.settled).count p

theorem settlements_append {ℓ : Type} (past : List (Move ℓ)) (m : Move ℓ) (p : PromiseId) :
    settlements (past ++ [m]) p = settlements past p + m.settled.count p := by
  simp [settlements, List.flatMap_append]

namespace Client

variable {ℓ : Type} {c c' : Client ℓ} {p : PromiseId} {q : Promise Unit ℓ}

theorem isDone_attach {q q' : Promise Unit ℓ} {l : ℓ} {r : Option (Except ClientError Unit)}
    (h : q.attach l = .ok (q', r)) : q'.isDone = q.isDone := by
  rcases q with (_ | _) | (_ | _) <;> cases h <;> rfl

theorem settle_of_open (hq : c.promises[p]? = some q) (ho : q.isDone = false) (result : Outcome) :
    ∃ q' : Promise Unit ℓ, q'.isDone ∧ (c.settle p result).2.promises = c.promises.set p q' := by
  have hget : c.promises.getD p .new = q := by simp [List.getD, hq]
  unfold settle
  rw [hget]
  rcases q with (_ | l) | _
  · exact ⟨_, rfl, rfl⟩
  · exact ⟨_, rfl, rfl⟩
  · cases ho

theorem perform_of_open (hq : c.promises[p]? = some q) (ho : q.isDone = false) {e : Effect}
    (he : e.settled = [p]) :
    ∃ q' : Promise Unit ℓ, q'.isDone ∧ (c.perform e).2.promises = c.promises.set p q' := by
  cases e with
  | settle p' result | finishSend p' result =>
    obtain rfl : p' = p := by simpa [Effect.settled] using he
    exact settle_of_open hq ho result
  | _ => cases he

theorem promises_perform {e : Effect} (he : e.settled = []) :
    (c.perform e).2.promises = c.promises := by
  cases e with
  | settle | finishSend => cases he
  | _ => rfl

end Client

theorem Call.promises_signal (call : Call) (p : PromiseId) : (call.signal p).promises = [p] := by
  cases call <;> rfl

theorem Completion.promises_of_signal {c : Completion} {result : Outcome} {x : Signal}
    (h : c.signal? result = some x) : x.promises = [] := by
  cases c with
  | failure => cases result <;> cases h; rfl
  | flush => cases h; rfl
  | delivery d => cases result <;> cases d <;> cases h <;> rfl

theorem Effect.settled_cases (e : Effect) : e.settled = [] ∨ ∃ p, e.settled = [p] := by
  cases e <;> simp [settled]

theorem Effect.promises_eq (e : Effect) :
    e.promises = e.settled ++ e.posted.flatMap Signal.promises := by
  cases e <;> simp [promises, settled, posted]

namespace System

variable {ℓ : Type} {s s' : System ℓ} {past : List (Move ℓ)} {p : PromiseId}

/-- The promises that the signals in the mailbox and the core hold. -/
def held (s : System ℓ) : List PromiseId :=
  s.client.mailbox.waiting.flatMap Signal.promises ++ s.client.core.held

/-- How often a promise is held, or going to be completed in the turn. -/
def owed (s : System ℓ) (p : PromiseId) : Nat :=
  s.held.count p + (s.agenda.flatMap Effect.promises).count p

theorem owed_post (x : Signal) : (s.post x).owed p = s.owed p + x.promises.count p := by
  simp only [owed, held, post, Client.post, Mailbox.waiting_post, List.flatMap_append,
    List.flatMap_singleton, List.count_append]
  omega

/-- What an effect does not complete goes on in the signal that it posts. -/
theorem owed_perform {e : Effect} {rest : List Effect} (ha : s.agenda = e :: rest)
    (p : PromiseId) : (s.perform e rest).owed p + e.settled.count p = s.owed p := by
  have hw : (s.perform e rest).client.mailbox.waiting =
      s.client.mailbox.waiting ++ e.posted := Client.waiting_perform ..
  have hc : (s.perform e rest).client.core = s.client.core := Client.core_perform ..
  have hr : (s.perform e rest).agenda = rest := rfl
  simp only [owed, held, hw, hc, hr, ha, List.flatMap_append, List.flatMap_cons, e.promises_eq,
    List.count_append]
  omega

/-- Every promise is completed once or held once. -/
structure Conserved (past : List (Move ℓ)) (s : System ℓ) : Prop where
  total : ∀ p, settlements past p + s.owed p = if p < s.client.promises.length then 1 else 0
  done : ∀ p q, s.client.promises[p]? = some q → (q.isDone ↔ settlements past p = 1)

namespace Conserved

theorem new (id : String) (threshold : Nat) :
    Conserved [] (System.new id threshold : System ℓ) where
  total := fun p => rfl
  done := by simp [System.new, Client.new]

/-- What is going to be completed is not completed yet. -/
theorem isOpen (h : Conserved past s) (hp : 0 < s.owed p) :
    settlements past p = 0 ∧ s.owed p = 1 ∧
      ∃ q, s.client.promises[p]? = some q ∧ q.isDone = false := by
  have ht := h.total p
  have hlt : p < s.client.promises.length := by
    by_contra hlt
    rw [if_neg hlt] at ht
    omega
  rw [if_pos hlt] at ht
  have hz : settlements past p = 0 := by omega
  refine ⟨hz, by omega, _, List.getElem?_eq_getElem hlt, ?_⟩
  have hd := h.done p _ (List.getElem?_eq_getElem hlt)
  rw [hz] at hd
  simpa using hd

theorem congr (h : Conserved past s) {m : Move ℓ} (hm : m.settled = [])
    (hp : s'.client.promises = s.client.promises) (ho : ∀ p, s'.owed p = s.owed p) :
    Conserved (past ++ [m]) s' where
  total := by
    intro p
    rw [settlements_append, hm, ho, hp]
    exact h.total p
  done := by
    rw [hp]
    intro p q hq
    rw [settlements_append, hm]
    exact h.done p q hq

theorem call (h : Conserved past s) {seen : ClientState} {call : Call} {q : PromiseId}
    (hs : s.step (.call seen call q) = some s') : Conserved (past ++ [.call seen call q]) s' := by
  have howed (p : PromiseId) : s'.owed p = s.owed p + [q].count p := by
    cases step_eq_some.mp hs
    simp only [owed, held, Mailbox.waiting_post, List.flatMap_append, List.flatMap_singleton,
      Call.promises_signal, List.count_append]
    omega
  have hsettled (p : PromiseId) :
      settlements (past ++ [.call seen call q]) p = settlements past p := settlements_append ..
  obtain ⟨hq, hp⟩ : q = s.client.promises.length ∧
      s'.client.promises = s.client.promises ++ [.new] := by
    cases step_eq_some.mp hs with
    | call _ _ hnew => exact ⟨hnew, rfl⟩
  constructor
  · intro p
    have ht := h.total p
    rw [hsettled, howed, hp, List.length_append, List.length_singleton, List.count_singleton]
    by_cases hpq : q = p
    · subst hpq
      rw [if_neg (Nat.not_lt.mpr hq.ge)] at ht
      rw [if_pos (beq_self_eq_true q), if_pos (Nat.lt_succ_of_le hq.le)]
      omega
    · have hlt : p < s.client.promises.length ↔ p < s.client.promises.length + 1 := by
        rw [Nat.lt_succ_iff_lt_or_eq]
        exact (or_iff_left fun he => hpq (hq.trans he.symm)).symm
      rw [if_neg (by simpa using hpq), Nat.add_zero, ht]
      exact if_congr hlt rfl rfl
  · intro p r hr
    rw [hsettled]
    rw [hp] at hr
    by_cases hlt : p < s.client.promises.length
    · rw [List.getElem?_append_left hlt] at hr
      exact h.done p r hr
    · -- The new promise has not been completed.
      have ht := h.total p
      rw [if_neg hlt] at ht
      rw [List.getElem?_append_right (Nat.le_of_not_lt hlt)] at hr
      obtain rfl : r = .new := List.mem_singleton.mp (List.mem_of_getElem? hr)
      simp only [Promise.isDone_new, Bool.false_eq_true, false_iff]
      omega

theorem perform (h : Conserved past s) {e : Effect} (hs : s.step (.perform e) = some s') :
    Conserved (past ++ [.perform e]) s' := by
  obtain ⟨rest, ha, rfl⟩ := step_perform hs
  have howed := owed_perform ha
  rcases e.settled_cases with he | ⟨q, he⟩
  · have hnone : (Move.perform e : Move ℓ).settled = [] := by
      simp [Move.settled, Move.performed, he]
    refine h.congr hnone (Client.promises_perform he) fun p => ?_
    have := howed p
    rwa [he] at this
  · have hq := howed q
    rw [he, List.count_singleton_self] at hq
    obtain ⟨hz, hone, r, hr, ho⟩ := h.isOpen (p := q) (by omega)
    obtain ⟨r', hd, hp⟩ := Client.perform_of_open hr ho he
    have hset : (s.perform e rest).client.promises = s.client.promises.set q r' := hp
    have hsettled (p : PromiseId) :
        settlements (past ++ [.perform e]) p = settlements past p + [q].count p := by
      rw [settlements_append, Move.settled, Move.performed, List.flatMap_singleton, he]
    constructor
    · intro p
      have ht := h.total p
      have hp := howed p
      rw [he] at hp
      rw [hsettled, hset, List.length_set]
      omega
    · intro p a hpa
      rw [hsettled]
      rw [hset, List.getElem?_set] at hpa
      by_cases hpq : q = p
      · subst hpq
        have hlt : q < s.client.promises.length := (List.getElem?_eq_some_iff.mp hr).1
        simp only [if_true, if_pos hlt, Option.some.injEq] at hpa
        subst hpa
        simp [hd, hz]
      · rw [if_neg hpq] at hpa
        simpa [hpq] using h.done p a hpa

theorem move (h : Conserved past s) {m : Move ℓ} (hs : s.step m = some s')
    (hm : ∀ x, m ≠ .take x) : Conserved (past ++ [m]) s' := by
  cases step_eq_some.mp hs with
  | call => exact h.call hs
  | perform => exact h.perform hs
  | take => exact absurd rfl (hm _)
  | @listen q l r result hlt ha =>
    have hq : s.client.promises[q]? = some s.client.promises[q] := List.getElem?_eq_getElem hlt
    constructor
    · intro p
      rw [settlements_append, List.length_set]
      exact h.total p
    · intro p a hp
      rw [settlements_append]
      rw [List.getElem?_set] at hp
      by_cases hpq : q = p
      · subst hpq
        simp only [if_true, if_pos hlt, Option.some.injEq] at hp
        rw [← hp, Client.isDone_attach ha]
        exact h.done q _ hq
      · rw [if_neg hpq] at hp
        exact h.done p a hp
  | @finish i job result hj =>
    cases hx : job.completion.signal? result with
    | none => exact h.congr rfl rfl fun p => rfl
    | some x =>
      refine h.congr rfl rfl fun p => (owed_post x).trans ?_
      rw [Completion.promises_of_signal hx]
      rfl
  | @answer r result =>
    refine h.congr rfl rfl fun p => (owed_post _).trans ?_
    simp
  | _ => exact h.congr rfl rfl fun p => owed_post _

theorem take (hc : s.Coherent past) (h : Conserved past s) {x : Signal}
    (hs : s.step (.take x) = some s') : Conserved (past ++ [.take x]) s' := by
  obtain ⟨hd, hown⟩ := hc.beside_take hs
  obtain ⟨ha, rest, hw, rfl⟩ := step_take hs
  refine h.congr rfl rfl fun p => ?_
  have hhandle := hc.sound.owed_handle (p := p) hd hown
  simp only [Turn.owed] at hhandle
  simp only [owed, held, begin, hw, ha, List.flatMap_cons, List.flatMap_nil, List.count_append,
    List.count_nil]
  omega

theorem step (hc : s.Coherent past) (h : Conserved past s) {m : Move ℓ}
    (hs : s.step m = some s') : Conserved (past ++ [m]) s' := by
  cases m with
  | take x => exact h.take hc hs
  | _ => exact h.move hs (by simp)

end Conserved

end System

section Reached

variable {ℓ : Type} {s : System ℓ} {past : List (Move ℓ)}

theorem Reached.conserved (h : Reached past s) : s.Conserved past :=
  h.induction (fun id threshold => .new id threshold) fun hr ih hs => ih.step hr.coherent hs

theorem System.Coherent.held_of_stopped (h : s.Coherent past) (hr : s.AtRest)
    (hp : s.client.core.phase = .stopped) (hm : s.client.mailbox.waiting = []) : s.held = [] := by
  obtain ⟨hc, ht⟩ := h.sound
  have ha : s.agenda = [] := hr
  have hstarts : s.client.core.pendingStarts = [] := by
    have hres : Posting.Holds _ _ _ := hc.resume
    rw [hp, System.due_own s (.inl rfl)] at hres
    by_contra hne
    simp [Phase.marks, Phase.resume, Posting.Holds, System.queue, hm, ha, Core.course, hne] at hres
  have hstops : s.client.core.pendingStops = [] := hc.stops (by rw [hp]; rfl)
  obtain ⟨hwork, hsends⟩ := ht.idle (by rw [hp]; rfl)
  have hrows : s.client.core.subscriptions = [] := by
    rw [List.eq_nil_iff_forall_not_mem]
    intro row hrow
    have hadm := ht.shape row hrow
    rwa [hp] at hadm
  simp [System.held, Core.held, hm, hstarts, hstops, hwork, hsends, hrows]

structure System.PromisesKept (past : List (Move ℓ)) (s : System ℓ) : Prop where
  /-- No promise is completed twice. -/
  once : ∀ p, settlements past p ≤ 1
  /-- Whatever is going to be completed is still open. -/
  fresh : ∀ e ∈ s.agenda, ∀ p ∈ e.settled, ∃ q, s.client.promises[p]? = some q ∧ q.isDone = false
  done : ∀ p q, s.client.promises[p]? = some q → (q.isDone ↔ settlements past p = 1)
  /-- Between two turns an open promise is held in exactly one place. -/
  held : s.AtRest → ∀ p q, s.client.promises[p]? = some q →
    s.held.count p = if q.isDone then 0 else 1
  stopped : s.AtRest → s.client.core.phase = .stopped → s.client.mailbox.waiting = [] →
    ∀ q ∈ s.client.promises, q.isDone

theorem Reached.promises_kept (h : Reached past s) : s.PromisesKept past := by
  have hc := h.conserved
  have hheld : s.AtRest → ∀ p q, s.client.promises[p]? = some q →
      s.held.count p = if q.isDone then 0 else 1 := by
    intro hr p q hq
    have ha : s.agenda = [] := hr
    have ht := hc.total p
    have hd := hc.done p q hq
    rw [if_pos (List.getElem?_eq_some_iff.mp hq).1] at ht
    simp only [System.owed, ha, List.flatMap_nil, List.count_nil] at ht
    split
    · next hdone =>
      have := hd.mp hdone
      omega
    · next hopen =>
      have := mt hd.mpr hopen
      omega
  refine ⟨?_, ?_, hc.done, hheld, ?_⟩
  · intro p
    have ht := hc.total p
    split at ht <;> omega
  · intro e he p hp
    have hpos : 0 < s.owed p := by
      have hmem : p ∈ s.agenda.flatMap Effect.promises :=
        List.mem_flatMap.mpr ⟨e, he, by rw [e.promises_eq]; exact List.mem_append_left _ hp⟩
      exact Nat.lt_of_lt_of_le (List.count_pos_iff.mpr hmem) (Nat.le_add_left ..)
    exact (hc.isOpen hpos).2.2
  · intro hr hph hm q hq
    obtain ⟨p, hpq⟩ := List.mem_iff_getElem?.mp hq
    have hcount := hheld hr p q hpq
    rw [h.coherent.held_of_stopped hr hph hm] at hcount
    by_contra hopen
    simp [hopen] at hcount

/-- A run in which the connection is lost while a subscribe is under way. -/
def loseSubscribe : List (Move Unit) :=
  let params : SubscribeParams :=
    { topic := ⟨"news", none⟩, qos := .atLeastOnce, credit := 1, autoConfirm := true
      ttlSeconds := 0 }
  [.call .stopped .start 0, .take (.start (some 0)), .perform (.publish .starting),
    .perform (.notify .starting), .perform (.request .lookup),
    .answerLookup (.ok (.found default)), .take (.endpointAnswered (.ok (.found default))),
    .perform (.publish .starting), .perform (.request (.connect ⟨1⟩ default)),
    .answer (.opened ⟨1⟩) (.ok ()), .take (.opened ⟨1⟩ (.ok ())), .perform (.publish .started),
    .perform (.request (.report default)), .perform (.settle 0 (.ok ())),
    .perform (.notify .started),
    .call .started (.subscribe params.topic { qos := .atLeastOnce, credit := 1 } 0) 1,
    .take (.work (.subscribe ⟨params, 0, 1⟩)), .perform (.request (.subscribe ⟨1⟩ params)),
    .disconnect ⟨1⟩ (.network "lost"), .take (.disconnected ⟨1⟩ (.network "lost")),
    .perform (.publish .retrying), .perform .takeDrain,
    .perform (.notify (.retrying (some (.network "lost")))), .perform (.request .lookup)]

set_option maxRecDepth 8000 in
/-- The promise of the subscribe is held, by the row that is to be renewed. -/
theorem Reached.promises_kept_loseSubscribe : ∃ s, Reached loseSubscribe s ∧ s.AtRest ∧
    s.held = [1] ∧ s.PromisesKept loseSubscribe := by
  have hr : ∃ s, (System.new "" 1).run loseSubscribe = some s ∧ s.AtRest ∧ s.held = [1] :=
    ⟨_, rfl, rfl, rfl⟩
  obtain ⟨s, hs, ha, hp⟩ := hr
  exact ⟨s, ⟨"", 1, hs⟩, ha, hp, Reached.promises_kept ⟨"", 1, hs⟩⟩

end Reached

end PubSub
