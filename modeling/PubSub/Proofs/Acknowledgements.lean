import Mathlib.Data.List.Perm.Subperm
import PubSub.Proofs.Receipts

/-! # Acknowledgements

A message is acknowledged at most once, with its own tag and while its own
connection is the current one. By itself it is acknowledged after its listener
has finished without a failure, under a number after the application has
confirmed it; a second confirmation is refused.
-/

namespace PubSub

open Turn

variable {ℓ : Type}

/-- What the end of a callback acknowledges if there was no failure. -/
def Completion.promised? : Completion → Option PendingDelivery
  | delivery acknowledge => acknowledge
  | _ => none

theorem Completion.count_signal (completion : Completion) (result : Outcome)
    (d : PendingDelivery) : (completion.signal? result).toList.count (.autoConfirm d) =
      (if result = .ok () then completion.promised? else none).toList.count d := by
  cases completion with
  | delivery acknowledge =>
    cases result with
    | ok => cases acknowledge <;> simp [signal?, promised?, List.count_singleton]
    | error e => simp [signal?]
  | failure => cases result <;> simp [signal?, promised?]
  | flush => simp [signal?, promised?]

theorem Call.count_signal (call : Call) (p : PromiseId) (d : PendingDelivery) :
    [call.signal p].count (.autoConfirm d) = 0 := by
  cases call <;> simp [signal]

theorem Client.promised_perform (c : Client ℓ) (e : Effect) :
    (c.perform e).1.filterMap (·.completion.promised?) = e.promised?.toList := by
  have hsettle (p : PromiseId) (result : Outcome) :
      (c.settle p result).1.filterMap (·.completion.promised?) = [] := by
    unfold settle
    split
    · rfl
    · next l _ => cases l <;> rfl
  have hdrain (due : Bool) :
      (drainJobs due : List (Job ℓ)).filterMap (·.completion.promised?) = [] := by
    cases due <;> rfl
  cases e with
  | settle p result => exact hsettle p result
  | finishSend p result =>
    simp [perform, hsettle, hdrain, Effect.promised?]
  | takeDrain => exact hdrain _
  | notify n =>
    cases n with
    | delivery l d acknowledge => cases acknowledge <;> rfl
    | _ => rfl
  | _ => rfl

namespace System

def hears (s : System ℓ) : Move ℓ → Option PendingDelivery
  | .finish job result =>
    if result = .ok () then s.jobs[job]?.bind (·.completion.promised?) else none
  | _ => none

/-- What is acknowledged by the listeners that finish in a run, in the order of their ends. -/
def heard (s : System ℓ) : List (Move ℓ) → List PendingDelivery
  | [] => []
  | m :: moves => (s.hears m).toList ++ (s.step m).elim [] (·.heard moves)

theorem heard_append {s t : System ℓ} {moves : List (Move ℓ)} (h : s.run moves = some t)
    (m : Move ℓ) : s.heard (moves ++ [m]) = s.heard moves ++ (t.hears m).toList := by
  induction moves generalizing s with
  | nil =>
    obtain rfl := Option.some.inj h
    cases hs : s.step m <;> simp [heard, hs]
  | cons m' moves ih =>
    rw [run_cons] at h
    obtain ⟨u, hu, h⟩ := Option.bind_eq_some_iff.mp h
    simp [heard, hu, ih h]

def promising (s : System ℓ) : List PendingDelivery :=
  s.jobs.filterMap (·.completion.promised?) ++ s.agenda.filterMap Effect.promised?

variable {s s' : System ℓ} {past : List (Move ℓ)} {m : Move ℓ}

theorem count_brought (m : Move ℓ) (d : PendingDelivery) :
    (s.brought m).count (.autoConfirm d) = (s.hears m).toList.count d := by
  cases m with
  | call seen call p => exact call.count_signal p d
  | answer r result => cases r <;> simp [brought, hears, Session.Reply.signal]
  | finish i result =>
    cases hj : s.jobs[i]? with
    | none => simp [brought, hears, hj]
    | some job => simpa [brought, hears, hj] using job.completion.count_signal result d
  | _ => simp [brought, hears]

theorem count_performed (hc : s.Coherent past) (h : s.step m = some s') (d : PendingDelivery) :
    (m.performed.flatMap Effect.posted).count (.autoConfirm d) = 0 := by
  rw [List.count_eq_zero]
  intro hd
  cases hc.isOwn_of_performed h hd

theorem hears_promising (h : s.step m = some s') (hm : ∀ x, m ≠ .take x) (d : PendingDelivery) :
    (s.hears m).toList.count d + s'.promising.count d ≤ s.promising.count d := by
  cases step_eq_some.mp h with
  | listen => simp [hears, promising, List.filterMap_map, Completion.promised?]
  | @finish i job result hj =>
    have hi : i < s.jobs.length := (List.getElem?_eq_some_iff.mp hj).1
    have hg : s.jobs[i] = job := (List.getElem?_eq_some_iff.mp hj).2
    have hcount : (s.jobs.filterMap (·.completion.promised?)).count d =
        job.completion.promised?.toList.count d +
          ((s.jobs.eraseIdx i).filterMap (·.completion.promised?)).count d := by
      rw [← ((List.getElem_cons_eraseIdx_perm hi).filterMap _).count_eq d, hg, List.filterMap_cons]
      cases job.completion.promised? <;> simp [List.count_cons, Nat.add_comm]
    simp only [promising, List.count_append, hcount, hears, hj, Option.bind_some]
    split
    · omega
    · simp
  | take => exact absurd rfl (hm _)
  | @perform e rest ha =>
    have hjobs : (s.perform e rest).jobs = s.jobs ++ (s.client.perform e).1 := rfl
    have hagenda : (s.perform e rest).agenda = rest := rfl
    have hcons : (e :: rest).filterMap Effect.promised? =
        e.promised?.toList ++ rest.filterMap Effect.promised? := by
      cases he : e.promised? <;> simp [he]
    simp [promising, hjobs, hagenda, ha, hcons, Client.promised_perform, hears]
  | _ => simp [hears, promising, post]

/-- What is acknowledged without a number was heard of before, and heard of is what was promised
when the message was taken up. -/
structure Heard (start : System ℓ) (past : List (Move ℓ)) (s : System ℓ) : Prop where
  posted : ∀ d, (s.posted past).count (.autoConfirm d) = (start.heard past).count d
  promised : ∀ d, (start.heard past).count d + s.promising.count d ≤
    (receipts past).count ⟨none, d⟩
  confirmed : ∀ d, (confirms past).count ⟨none, d⟩ ≤ (handled past).count (.autoConfirm d)

namespace Heard

variable {start : System ℓ}

theorem new (id : String) (threshold : Nat) :
    Heard (System.new id threshold) [] (System.new id threshold : System ℓ) where
  posted := fun _ => rfl
  promised := fun _ => Nat.le_refl _
  confirmed := fun _ => Nat.le_refl _

theorem move (hc : s.Coherent past) (hrun : start.run past = some s) (h : Heard start past s)
    (hs : s.step m = some s') (hm : ∀ x, m ≠ .take x) : Heard start (past ++ [m]) s' := by
  constructor
  · intro d
    rw [posted_step hs hm, heard_append hrun, List.count_append, List.count_append,
      List.count_append, count_brought, count_performed hc hs, h.posted, Nat.add_zero]
  · intro d
    have hle := hears_promising hs hm d
    have hold := h.promised d
    rw [heard_append hrun, List.count_append, receipts_of_ne_take past hm]
    omega
  · intro d
    rw [confirms_of_ne_take past hm, handled_of_ne_take past hm]
    exact h.confirmed d

theorem take (hr : Reached past s) (hrun : start.run past = some s) (h : Heard start past s)
    {x : Signal} (hs : s.step (.take x) = some s') : Heard start (past ++ [.take x]) s' := by
  have hcore := hr.core_eq
  have hhandles := hr.handles hs
  have hheard : start.heard (past ++ [.take x]) = start.heard past := by
    simp [heard_append hrun, hears]
  constructor
  · intro d
    rw [posted_take hs, hheard, h.posted]
  · intro d
    obtain ⟨ha, rest, -, rfl⟩ := step_take hs
    have hpromising : (s.begin x ⟨rest, true⟩).promising =
        s.promising ++ s.client.core.promised x := by
      simp [promising, ha, begin, Core.promised]
    have hold := h.promised d
    rw [hheard, hpromising, receipts_take, ← hcore, List.count_append, List.count_append,
      hhandles.promised_eq]
    have hreceipt : (((s.client.core.receipt? x).filter (·.number.isNone)).map
        (·.origin)).toList.count d ≤ (s.client.core.receipt? x).toList.count ⟨none, d⟩ := by
      rcases s.client.core.receipt? x with _ | ⟨_ | id, origin⟩ <;>
        simp [Option.filter, List.count_singleton]
    omega
  · intro d
    have hold := h.confirmed d
    rw [confirms_take, ← hcore, List.count_append]
    rw [handled_take, List.count_append]
    rcases hhandles.confirms_cases with hnone | ⟨id, p, e, -, -, -, -, heq⟩ | ⟨d', rfl, -, heq⟩
    · rw [hnone]
      simpa using Nat.le_add_right_of_le hold
    · rw [heq]
      simpa using Nat.le_add_right_of_le hold
    · rw [heq]
      simpa [List.count_singleton] using hold

end Heard

theorem heard_of_run {id : String} {threshold : Nat}
    (h : (System.new id threshold).run past = some s) : Heard (System.new id threshold) past s := by
  refine run_induction (P := Heard (System.new id threshold)) (.new id threshold) ?_ h
  intro past s m s' hrun ih hs
  have hr : Reached past s := ⟨id, threshold, hrun⟩
  cases m with
  | take x => exact ih.take hr hrun hs
  | _ => exact ih.move hr.coherent hrun hs (by simp)

end System

theorem Client.confirmed_perform (c : Client ℓ) (e : Effect) :
    (c.perform e).2.confirmed = c.confirmed := by
  have hsettle (p : PromiseId) (result : Outcome) :
      (c.settle p result).2.confirmed = c.confirmed := by
    unfold settle
    split <;> rfl
  cases e with
  | settle p result | finishSend p result => exact hsettle p result
  | _ => rfl

theorem System.confirmed_step {s s' : System ℓ} {m : Move ℓ} (h : s.step m = some s') :
    s.client.confirmed ⊆ s'.client.confirmed := by
  cases step_eq_some.mp h with
  | call => exact List.subset_append_right ..
  | perform => simp [perform, Client.confirmed_perform]
  | _ => exact List.Subset.refl _

namespace Reached

variable {s : System ℓ} {past before later : List (Move ℓ)}

theorem confirm_again (h : Reached past s) {seen : ClientState} {d d' : Delivery} {p : PromiseId}
    (hcall : .call seen (.confirm d) p ∈ past) (hd : d'.confirmation = d.confirmation) :
    s.client.confirm d' = .error (.state "delivery already confirmed") := by
  have hused : ∃ id ∈ s.client.confirmed, d.confirmation = some id := by
    refine h.induction (P := fun past s => .call seen (.confirm d) p ∈ past →
      ∃ id ∈ s.client.confirmed, d.confirmation = some id) (fun _ _ => by simp) ?_ hcall
    intro past s m s' hr ih hs hm
    rcases List.mem_append.mp hm with hm | hm
    · obtain ⟨id, hid, hd⟩ := ih hm
      exact ⟨id, System.confirmed_step hs hid, hd⟩
    · obtain rfl := List.mem_singleton.mp hm
      obtain ⟨id, origin, hid, -⟩ := hr.arrived_of_confirm hs
      refine ⟨id, ?_, hid⟩
      cases System.step_eq_some.mp hs
      simp [Call.confirms?, hid]
  obtain ⟨id, hid, hconf⟩ := hused
  simp [Client.confirm, hd, hconf, hid]

/-- A confirmation under a number comes from the call that confirms the delivery of that number. -/
theorem confirm_called {id : ConfirmationId} {p : PromiseId}
    (h : Reached (before ++ .take (.confirm id p) :: later) s) :
    ∃ seen d, .call seen (.confirm d) p ∈ before ∧ d.confirmation = some id := by
  obtain ⟨u, v, hu, hs⟩ := h.of_append_cons
  obtain ⟨-, rest, hw, -⟩ := System.step_take hs
  have hposted : .confirm id p ∈ u.posted before := by simp [System.posted, hw]
  rcases hu.given.called _ hposted with hnone | ⟨seen, call, q, hcall, heq⟩
  · cases hnone
  · cases call with
    | confirm d =>
      obtain ⟨-, id', -, hid', -⟩ := hu.confirming hcall
      simp only [Call.signal, hid', Option.getD_some, Signal.confirm.injEq] at heq
      obtain ⟨rfl, rfl⟩ := heq
      exact ⟨seen, d, hcall, hid'⟩
    | _ => cases heq

/-- What a turn acknowledges under a number is the message that arrived under it. -/
theorem confirm_origin {x : Signal} {r : Receipt} {id : ConfirmationId}
    (h : Reached (before ++ .take x :: later) s) (hr : r ∈ (Core.after before).confirms x)
    (hid : r.number = some id) : ∃ p seen d, x = .confirm id p ∧
      .call seen (.confirm d) p ∈ before ∧ d.confirmation = some id ∧
        ∀ o, Arrived before d o ↔ o = r.origin := by
  obtain ⟨u, v, hu, hs⟩ := h.of_append_cons
  rw [← hu.core_eq] at hr
  rcases (hu.handles hs).confirms_cases with
    hnone | ⟨id', p, e, he, rfl, hn, -, heq⟩ | ⟨d, -, -, heq⟩
  · simp [hnone] at hr
  · rw [heq, List.mem_singleton] at hr
    subst hr
    obtain rfl := Option.some.inj hid
    obtain ⟨seen, d, hcall, hd⟩ := h.confirm_called
    obtain ⟨d', hd', ho'⟩ := hu.numbered.tracked e he
    refine ⟨p, seen, d, rfl, hcall, hd, fun o => ⟨fun ho => ?_, ?_⟩⟩
    · exact hu.numbered.unique d d' _ _ _ ho ho' hd (hn ▸ hd')
    · rintro rfl
      obtain ⟨-, id₁, origin₁, hid₁, ho₁⟩ := hu.confirming hcall
      rwa [hu.numbered.unique d d' _ _ _ ho₁ ho' hd (hn ▸ hd')] at ho₁
  · rw [heq, List.mem_singleton] at hr
    subst hr
    cases hid

theorem confirm_current (h : Reached past s) {d : PendingDelivery}
    (hd : .request (.confirm d.connection d.tag) ∈ s.agenda) :
    s.client.core.connection = some d.connection := by
  refine h.turn_induction (P := fun past s => .request (.confirm d.connection d.tag) ∈ s.agenda →
    s.client.core.connection = some d.connection) (fun _ _ => by simp [System.new]) ?_ ?_ hd
  · intro past s m s' hr ih hs hm hd
    rw [System.core_step hs hm]
    exact ih (by rw [System.agenda_step hs hm]; exact List.mem_append_right _ hd)
  · intro past s x s' hr ih hs hd
    have hhandles := hr.handles hs
    obtain ⟨-, rest, -, rfl⟩ := System.step_take hs
    have hmem : ⟨x.number?, d⟩ ∈ s.client.core.confirms x :=
      List.mem_map_of_mem (List.mem_filterMap.mpr ⟨_, hd, rfl⟩)
    have hkept (hx : x.isSteady) : (s.client.core.handle x).core.connection =
        s.client.core.connection :=
      congrArg Course.connection (stays_handle (Turn.begin s.client.core) hx).course
    rcases hhandles.confirms_cases with
      hnone | ⟨id, p, e, he, rfl, -, hk, heq⟩ | ⟨d', rfl, hk, heq⟩
    · simp [hnone] at hmem
    · rw [heq, List.mem_singleton] at hmem
      injection hmem with _ hd
      exact (hkept rfl).trans (by simpa [Core.isCurrent, hd] using hk)
    · rw [heq, List.mem_singleton] at hmem
      injection hmem with _ hd
      exact (hkept rfl).trans (by simpa [Core.isCurrent, hd] using hk)

theorem confirms_issued (h : Reached past s) :
    (past.flatMap Move.performed).filterMap Effect.confirm? ++ s.agenda.filterMap Effect.confirm? =
      (confirms past).map (·.origin) := by
  rw [← List.filterMap_append, ← System.issued, h.issued_turns, List.filterMap_flatMap, confirms,
    List.map_flatMap]
  simp [Core.confirms, Function.comp_def]

end Reached

structure System.Acknowledges (start : System ℓ) (past : List (Move ℓ)) (s : System ℓ) : Prop where
  /-- What is acknowledged on the wire is what turns acknowledge, in that order. -/
  wired : (past.flatMap Move.performed).filterMap Effect.confirm? <+:
    (confirms past).map (·.origin)
  /-- A message is acknowledged while its connection is the current one. -/
  current : ∀ before k tag later, past = before ++ .perform (.request (.confirm k tag)) :: later →
    (Core.after before).connection = some k
  /-- A listener is handed a message that has no guarantee and leaves no receipt, or one that
  leaves a receipt with its connection and tag. The delivery has the number of the receipt. -/
  received : ∀ c k m l d acknowledge, (c, .delivered k m) ∈ turns past →
    .notify (.delivery l d acknowledge) ∈ (c.handle (.delivered k m)).effects →
    m.qos = .atMostOnce ∧ c.receipt? (.delivered k m) = none ∧ d = .ofInbound m none ∧
        acknowledge = none ∨
      ∃ number, c.receipt? (.delivered k m) = some ⟨number, ⟨k, m.tag⟩⟩ ∧
        d = .ofInbound m number ∧ acknowledge = if number.isNone then some ⟨k, m.tag⟩ else none
  /-- Every receipt is for one acknowledgement at most, and nothing else is acknowledged. -/
  once : (confirms past).Subperm (receipts past)
  /-- No number is given to two deliveries. -/
  distinct : (Receipt.numbers (receipts past)).Nodup
  /-- At any time, what was acknowledged without a number had been heard of from a listener that
  finished without a failure, and that listener had been handed a message without a number. -/
  heard : ∀ before later, past = before ++ later → ∀ d,
    (confirms before).count ⟨none, d⟩ ≤ (start.heard before).count d ∧
      (start.heard before).count d ≤ (receipts before).count ⟨none, d⟩
  /-- What is acknowledged under a number is the message with which the delivery of that number
  arrived, after the application has confirmed that delivery. -/
  confirmed : ∀ before x later r id, past = before ++ .take x :: later →
    r ∈ (Core.after before).confirms x → r.number = some id →
    ∃ p seen d, x = .confirm id p ∧ .call seen (.confirm d) p ∈ before ∧
      d.confirmation = some id ∧ ∀ o, Arrived before d o ↔ o = r.origin
  /-- A delivery that was confirmed cannot be confirmed again, nor can a copy of it. -/
  again : ∀ seen d d' p, .call seen (.confirm d) p ∈ past → d'.confirmation = d.confirmation →
    s.client.confirm d' = .error (.state "delivery already confirmed")

theorem System.acknowledges_of_run {id : String} {threshold : Nat} {past : List (Move ℓ)}
    {s : System ℓ} (h : (System.new id threshold).run past = some s) :
    (System.new id threshold).Acknowledges past s := by
  have hr : Reached past s := ⟨id, threshold, h⟩
  have hcounts {before : List (Move ℓ)} {u : System ℓ}
      (hu : (System.new id threshold).run before = some u) (d : PendingDelivery) :
      (confirms before).count ⟨none, d⟩ ≤ ((System.new id threshold).heard before).count d ∧
        ((System.new id threshold).heard before).count d ≤ (receipts before).count ⟨none, d⟩ := by
    obtain ⟨hposted, hpromised, hconfirmed⟩ := heard_of_run hu
    have hle : (handled before).count (.autoConfirm d) ≤
        (u.posted before).count (.autoConfirm d) := by
      rw [posted, List.count_append]
      exact Nat.le_add_right ..
    exact ⟨(hconfirmed d).trans (hle.trans (hposted d).le),
      (Nat.le_add_right ..).trans (hpromised d)⟩
  constructor
  · rw [← hr.confirms_issued]
    exact List.prefix_append ..
  · rintro before k tag later rfl
    obtain ⟨u, v, hu, hs⟩ := hr.of_append_cons
    obtain ⟨rest, ha, -⟩ := step_perform hs
    rw [← hu.core_eq]
    exact hu.confirm_current (d := ⟨k, tag⟩) (by simp [ha])
  · intro c k m l d acknowledge _ hn
    exact c.notifies_delivered hn
  · rw [List.subperm_ext_iff]
    rintro ⟨_ | number, origin⟩ -
    · exact (hcounts h origin).1.trans (hcounts h origin).2
    · exact hr.receipted.count_le number origin
  · exact hr.receipted.distinct
  · rintro before later rfl d
    rw [run_append] at h
    obtain ⟨u, hu, -⟩ := Option.bind_eq_some_iff.mp h
    exact hcounts hu d
  · rintro before x later r number rfl hmem hnumber
    exact hr.confirm_origin hmem hnumber
  · intro seen d d' p hcall hd
    exact hr.confirm_again hcall hd

/-- A run in which one delivery is confirmed by the application and another by itself. -/
def confirmTwoWays : List (Move Unit) :=
  let params : SubscribeParams :=
    { topic := ⟨"alerts", none⟩, qos := .atLeastOnce, credit := 1, autoConfirm := true
      ttlSeconds := 0 }
  let options : SubscribeOptions := { qos := .atLeastOnce, credit := 1 }
  let message : InboundMessage :=
    { newsMessage with subscription := params.topic, topic := "alerts", tag := 8 }
  subscribeByHand ++ deliverAndConfirm ⟨1⟩ [] ++
  [.take (.confirm 1 2), .perform (.request (.confirm ⟨1⟩ 7)), .perform (.settle 2 (.ok ())),
    .call .started (.subscribe params.topic options 1) 3, .take (.work (.subscribe ⟨params, 1, 3⟩)),
    .perform (.request (.subscribe ⟨1⟩ params)), .answer (.subscribed ⟨1⟩ params.topic) (.ok ()),
    .take (.subscribed ⟨1⟩ params.topic (.ok ())), .perform (.settle 3 (.ok ())),
    .deliver ⟨1⟩ message, .take (.delivered ⟨1⟩ message),
    .perform (.notify (.delivery 1 (.ofInbound message none) (some ⟨⟨1⟩, 8⟩))),
    .finish 3 (.ok ()), .take (.autoConfirm ⟨⟨1⟩, 8⟩), .perform (.request (.confirm ⟨1⟩ 8))]

set_option maxRecDepth 8000 in
theorem System.acknowledges_of_run_confirmTwoWays :
    ∃ s, (System.new "" 1).run confirmTwoWays = some s ∧
      (confirmTwoWays.flatMap Move.performed).filterMap Effect.confirm? = [⟨⟨1⟩, 7⟩, ⟨⟨1⟩, 8⟩] ∧
      (System.new "" 1).Acknowledges confirmTwoWays s := by
  have hr : ∃ s, (System.new "" 1).run confirmTwoWays = some s := ⟨_, rfl⟩
  obtain ⟨s, hs⟩ := hr
  exact ⟨s, hs, rfl, System.acknowledges_of_run hs⟩

end PubSub
