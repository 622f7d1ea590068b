import PubSub.Proofs.Interleaving
import PubSub.Proofs.Lifecycle
import PubSub.Proofs.SendPromises

/-! # Backpressure

The window counts the sends that are open. A send that fills the window is
refused room and makes a debt: the application is to be notified once, at the
latest when the window has emptied, when the connection is lost, or when the
session is cleaned up. The debt is paid in the turn in which it falls due, and
no notification comes without a debt.
-/

namespace PubSub

/-- What the application is owed for the sends that were refused room. -/
inductive Debt where
  | clear
  | owed
  /-- The notification should have come by now. -/
  | overdue
  deriving DecidableEq, Repr

/-- The notification is to come by now. -/
def WindowEvent.isDeadline : WindowEvent → Bool
  | emptied | broken | closed => true
  | refused | drained => false

namespace Debt

def lapse : Debt → Debt
  | clear => clear
  | owed | overdue => overdue

/-- The debt after an event; a notification without a debt is against the rules. -/
def after (d : Debt) : WindowEvent → Option Debt
  | .refused => some (if d = clear then owed else d)
  | .drained => if d = clear then none else some clear
  | .emptied | .broken | .closed => some d.lapse

variable {d d' : Debt} {events : List WindowEvent}

theorem lapse_eq_clear : d.lapse = clear ↔ d = clear := by
  cases d <;> simp [lapse]

theorem after_of_isDeadline {e : WindowEvent} (he : e.isDeadline) (d : Debt) :
    d.after e = some d.lapse := by
  cases e <;> first | rfl | cases he

theorem foldlM_of_isDeadline (h : ∀ e ∈ events, e.isDeadline) (d : Debt) :
    events.foldlM after d = some (if events = [] then d else d.lapse) := by
  induction events generalizing d with
  | nil => rfl
  | cons e es ih =>
    have hes := ih (fun x hx => h x (List.mem_cons_of_mem _ hx)) d.lapse
    rw [List.foldlM_cons, after_of_isDeadline (h e List.mem_cons_self)]
    refine hes.trans ?_
    cases d <;> simp [lapse]

/-- A debt stays until the application is notified. -/
theorem ne_clear_of_foldlM (h : events.foldlM after d = some d') (hn : .drained ∉ events)
    (hd : d ≠ clear) : d' ≠ clear := by
  induction events generalizing d with
  | nil => exact Option.some.inj h ▸ hd
  | cons e es ih =>
    obtain ⟨d₁, he, h⟩ := Option.bind_eq_some_iff.mp h
    refine ih h (fun hm => hn (List.mem_cons_of_mem _ hm)) ?_
    cases e with
    | drained => exact absurd List.mem_cons_self hn
    | refused => cases he; simp [hd]
    | _ => cases he; exact mt lapse_eq_clear.mp hd

theorem overdue_of_foldlM (h : events.foldlM after overdue = some d') (hn : .drained ∉ events) :
    d' = overdue := by
  induction events with
  | nil => exact (Option.some.inj h).symm
  | cons e es ih =>
    obtain ⟨d₁, he, h⟩ := Option.bind_eq_some_iff.mp h
    have hsame : d₁ = overdue := by
      cases e with
      | drained => exact absurd List.mem_cons_self hn
      | _ => cases he; rfl
    exact ih (hsame ▸ h) fun hm => hn (List.mem_cons_of_mem _ hm)

/-- A debt comes from a refusal after the last notification. -/
theorem refused_of_foldlM (h : events.foldlM after clear = some d) (hd : d ≠ clear) :
    ∃ earlier later, events = earlier ++ .refused :: later ∧ .drained ∉ later := by
  revert hd
  refine foldlM_induction (P := fun es d => d ≠ clear → ∃ earlier later,
    es = earlier ++ .refused :: later ∧ .drained ∉ later) (fun h => absurd rfl h) ?_ h
  rintro es d e d' - ih he hd
  cases e with
  | refused => exact ⟨es, [], rfl, by simp⟩
  | drained =>
    simp only [after] at he
    split at he <;> cases he
    exact absurd rfl hd
  | _ =>
    cases he
    obtain ⟨earlier, later, rfl, hn⟩ := ih (mt lapse_eq_clear.mpr hd)
    exact ⟨earlier, later ++ [_], List.append_assoc .., by simpa using hn⟩

/-- No notification comes without a refusal after the one before. -/
theorem provoked (h : events.foldlM after clear = some d) {before later : List WindowEvent}
    (he : events = before ++ .drained :: later) :
    ∃ earlier between, before = earlier ++ .refused :: between ∧ .drained ∉ between := by
  rw [he, List.foldlM_append] at h
  obtain ⟨d₁, hbefore, h⟩ := Option.bind_eq_some_iff.mp h
  refine refused_of_foldlM hbefore ?_
  rintro rfl
  cases h

/-- A debt that is not overdue was paid after every deadline. -/
theorem paid (h : events.foldlM after clear = some d) (hd : d ≠ overdue)
    {before between later : List WindowEvent} {deadline : WindowEvent}
    (he : events = before ++ .refused :: (between ++ deadline :: later))
    (hdeadline : deadline.isDeadline) : .drained ∈ between ++ later := by
  rw [he, List.foldlM_append] at h
  obtain ⟨d₁, -, h⟩ := Option.bind_eq_some_iff.mp h
  rw [List.foldlM_cons] at h
  obtain ⟨d₂, hrefused, h⟩ := Option.bind_eq_some_iff.mp h
  rw [List.foldlM_append] at h
  obtain ⟨d₃, hbetween, h⟩ := Option.bind_eq_some_iff.mp h
  rw [List.foldlM_cons, after_of_isDeadline hdeadline] at h
  have howed : d₂ ≠ clear := by
    cases hrefused
    cases d₁ <;> simp
  by_contra hn
  rw [List.mem_append, not_or] at hn
  have hlapsed : d₃.lapse = overdue := by
    have := ne_clear_of_foldlM hbetween hn.1 howed
    cases d₃ <;> first | rfl | exact absurd rfl this
  exact hd (overdue_of_foldlM (hlapsed ▸ h) hn.2)

end Debt

open Turn

theorem Handles.takeDrain {c : Core} {env : Awaited → Nat} {x : Signal} (h : Handles c env x)
    {transition : Transition} (hx : (x.trigger? c).bind c.phase.transition = some transition)
    {a : Action} (ha : a ∈ transition.actions) (hw : a.windowEvent?.isSome) :
    .takeDrain ∈ (c.handle x).effects := by
  obtain ⟨next, actions⟩ := transition
  obtain ⟨trigger, ht, hn⟩ := Option.bind_eq_some_iff.mp hx
  obtain ⟨before, later, rfl⟩ := List.append_of_mem ha
  obtain ⟨m, m', -, hc, hact⟩ := h.control_of_transition ht hn
  rw [List.foldlM_append] at hact
  obtain ⟨m₁, hbefore, hact⟩ := Option.bind_eq_some_iff.mp hact
  obtain ⟨m₂, hact, hlater⟩ := Option.bind_eq_some_iff.mp hact
  obtain ⟨hc₁, hp₁⟩ := hc.performAll hbefore fireClosed
  rw [Core.handle_of_transition ht hn, List.foldl_append, List.foldl_cons]
  obtain ⟨es, hes, -⟩ := issues_performAll (hc₁.perform hact fireClosed) hlater (fun hm =>
    ((hc₁.phase_perform hact fireClosed).trans hp₁).trans
      (Phase.next_of_replayPendingWork hn (by simp [hm]))) fireClosed
  rw [hes]
  refine List.mem_append_left _ ?_
  cases a with
  | breakConnection => rw [perform, effects_breakConnection]; exact List.mem_concat_self
  | cleanup => rw [perform, effects_cleanup]; exact List.mem_concat_self
  | _ => cases hw

namespace System

variable {ℓ : Type} {s s' : System ℓ} {past : List (Move ℓ)}

theorem windowEvents_take {x : Signal} {e : WindowEvent} (he : e ∈ s.windowEvents (.take x)) :
    e.isDeadline ∧ ∃ transition a, (x.trigger? s.client.core).bind s.client.core.phase.transition =
      some transition ∧ a ∈ transition.actions ∧ a.windowEvent? = some e := by
  simp only [windowEvents] at he
  split at he
  · cases he
  · next transition ht =>
    obtain ⟨a, ha, he⟩ := List.mem_filterMap.mp he
    refine ⟨?_, transition, a, ht, ha, he⟩
    cases a <;> cases he <;> rfl

theorem windowEvents_perform {e : Effect} (he : e ≠ .takeDrain) (hq : e ≠ .notify .drain)
    (hf : ∀ p result, e ≠ .finishSend p result) : s.windowEvents (.perform e) = [] := by
  simp only [windowEvents, List.filterMap_eq_nil_iff]
  cases e with
  | takeDrain => exact absurd rfl he
  | finishSend p result => exact absurd rfl (hf p result)
  | settle p result =>
    intro job hj
    simp only [Client.perform, Client.settle] at hj
    split at hj
    · cases hj
    · obtain ⟨l, -, rfl⟩ := List.mem_map.mp hj
      rfl
  | notify n =>
    intro job hj
    obtain rfl := List.mem_singleton.mp hj
    cases n <;> first | rfl | exact absurd rfl hq
  | flush =>
    intro job hj
    obtain rfl := List.mem_singleton.mp hj
    rfl
  | _ => exact fun _ hj => absurd hj List.not_mem_nil

theorem windowEvents_drainJobs (due : Bool) :
    (Client.drainJobs due : List (Job ℓ)).filterMap Job.windowEvent? =
      if due then [.drained] else [] := by
  cases due <;> rfl

end System

namespace System.SendsApart

variable {ℓ : Type} {s : System ℓ} {past : List (Move ℓ)} {sends : List PromiseId}

theorem withWindow (h : s.SendsApart past sends) (window : SendWindow) :
    (s.withWindow window).SendsApart past sends := h.adjust window rfl

theorem settle (h : s.SendsApart past sends) {p : PromiseId} {result : Outcome}
    {rest : List Effect} (ha : s.agenda = .finishSend p result :: rest) :
    (s.settle p result rest).SendsApart (past ++ [.perform (.finishSend p result)]) sends ∧
      sends.countP (s.settle p result rest).client.isOpen + 1 = sends.countP s.client.isOpen := by
  have hstep : s.step (.perform (.finishSend p result)) =
      some (s.perform (.finishSend p result) rest) := System.step_eq_some.mpr (.perform ha)
  have hafter := h.step hstep
  have hcount := h.countP_step hstep
  simp only [Move.sendPromises, List.append_nil] at hafter hcount
  rw [System.settle_eq]
  exact ⟨hafter.adjust _ (by simp [perform, Client.perform]), hcount⟩

end System.SendsApart

/-- Only sends, their ends, and what is told of the window have to do with it. -/
theorem System.window_step {ℓ : Type} {s s' : System ℓ} {m : Move ℓ} (hs : s.step m = some s')
    (hsend : m.sendPromises = []) (hend : m.endedSends = []) (hd : m ≠ .perform .takeDrain) :
    s'.client.window = s.client.window := by
  cases step_eq_some.mp hs with
  | @call _ call =>
    cases call with
    | send => cases hsend
    | _ => rfl
  | @perform e =>
    cases e with
    | takeDrain => exact absurd rfl hd
    | finishSend => cases hend
    | settle => exact Client.window_settle ..
    | _ => rfl
  | _ => rfl

/-- The books of a window: what it has counted, and what has come of it. `opens` is the number of
open sends, and `due` holds while the turn is still going to take the notification. -/
structure Books (room : Nat) (w : SendWindow) (opens : Nat) (entering : Option Entry)
    (leaving : Option Leaving) (sends : List Sent) (events : List WindowEvent) (due : Prop) :
    Prop where
  threshold : w.threshold = room
  undrained : w.undrained = opens + entering.toList.length +
    if leaving = some .settled then 1 else 0
  owed : w.drainOwed → 0 < w.undrained ∨ leaving = some .emptied
  debt : ∃ d, events.foldlM Debt.after .clear = some d ∧ (d = .clear ↔ w.drainOwed = false) ∧
    (d = .overdue → leaving = some .emptied ∨ due)
  refusals : events.count .refused =
    sends.countP (!·.accepting) + entering.toList.countP (·.noted)
  sends : ∀ send ∈ sends, send.accepting = false ↔ room ≤ send.count
  entering : ∀ entry ∈ entering, (entry.accepting = false ↔ room ≤ entry.count) ∧
    (entry.noted → entry.accepting = false)

namespace Books

variable {room opens : Nat} {w : SendWindow} {entering : Option Entry} {leaving : Option Leaving}
  {sends : List Sent} {events : List WindowEvent} {due due' : Prop}

theorem new (threshold : Nat) (due : Prop) :
    Books (max threshold 1) (.new threshold) 0 none none [] [] due where
  threshold := rfl
  undrained := rfl
  owed := Bool.noConfusion
  debt := ⟨.clear, rfl, ⟨fun _ => rfl, fun _ => rfl⟩, Debt.noConfusion⟩
  refusals := rfl
  sends := List.forall_mem_nil _
  entering := by simp

theorem mono (h : Books room w opens entering leaving sends events due) (hd : due → due') :
    Books room w opens entering leaving sends events due' := by
  obtain ⟨d, hdebt, hclear, hdue⟩ := h.debt
  exact { h with debt := ⟨d, hdebt, hclear, fun ho => (hdue ho).imp id hd⟩ }

theorem count (h : Books room w opens none leaving sends events due) {entry : Entry}
    (ha : entry.accepting = w.count.1) (hn : entry.noted = false)
    (hc : entry.count = w.count.2.undrained) :
    Books room w.count.2 opens (some entry) leaving sends events due where
  threshold := h.threshold
  undrained := (congrArg (· + 1) h.undrained).trans (Nat.add_right_comm _ _ 1)
  owed := fun _ => .inl (Nat.succ_pos _)
  debt := h.debt
  refusals := by simp [h.refusals, hn]
  sends := h.sends
  entering := by
    rintro _ ⟨⟩
    rw [ha, hn, hc, ← h.threshold]
    simp [SendWindow.count]

theorem note {entry : Entry} (h : Books room w opens (some entry) leaving sends events due)
    (ha : entry.accepting = false) (hn : entry.noted = false) :
    Books room w.owe opens (some { entry with noted := true }) leaving sends
      (events ++ [.refused]) due := by
  obtain ⟨d, hdebt, hclear, hdue⟩ := h.debt
  refine ⟨h.threshold, h.undrained, fun _ => .inl ?_, ?_, ?_, h.sends, ?_⟩
  · have hundrained := h.undrained
    simp only [Option.toList_some, List.length_singleton] at hundrained
    exact Nat.lt_of_lt_of_eq (by omega) hundrained.symm
  · refine ⟨if d = .clear then .owed else d, ?_, ?_, fun ho => hdue ?_⟩
    · rw [List.foldlM_append, hdebt]
      rfl
    · refine iff_of_false ?_ nofun
      split <;> simp_all
    · split at ho
      · cases ho
      · exact ho
  · simp [h.refusals, hn]
  · rintro _ ⟨⟩
    exact ⟨(h.entering entry rfl).1, fun _ => ha⟩

theorem submit {entry : Entry} (h : Books room w opens (some entry) leaving sends events due)
    (ha : entry.accepting ∨ entry.noted) (p : PromiseId) :
    Books room w (opens + 1) none leaving (sends ++ [⟨p, entry.accepting, entry.count⟩]) events
      due where
  threshold := h.threshold
  undrained := h.undrained
  owed := h.owed
  debt := h.debt
  refusals := by
    have hnoted := (h.entering entry rfl).2
    rw [h.refusals]
    cases hacc : entry.accepting <;> simp_all
  sends := by
    intro send hm
    rcases List.mem_append.mp hm with hm | hm
    · exact h.sends send hm
    · obtain rfl := List.mem_singleton.mp hm
      exact (h.entering entry rfl).1
  entering := by simp

theorem settle (h : Books room w (opens + 1) entering none sends events due) :
    Books room w opens entering (some .settled) sends events due where
  threshold := h.threshold
  undrained := h.undrained.trans (by simp only [reduceCtorEq, if_false, if_true]; omega)
  owed := fun ho => .inl ((h.owed ho).resolve_right nofun)
  debt := by
    obtain ⟨d, hdebt, hclear, hdue⟩ := h.debt
    exact ⟨d, hdebt, hclear, fun ho => .inr ((hdue ho).resolve_left nofun)⟩
  refusals := h.refusals
  sends := h.sends
  entering := h.entering

theorem pos_of_settled (h : Books room w opens entering (some .settled) sends events due) :
    0 < w.undrained := h.undrained ▸ Nat.succ_pos _

theorem uncount (h : Books room w opens entering (some .settled) sends events due) :
    Books room w.uncount.2 opens entering (if w.uncount.1 then some .emptied else none) sends
      (events ++ if w.uncount.2.undrained = 0 then [.emptied] else []) due := by
  obtain ⟨d, hdebt, hclear, hdue⟩ := h.debt
  have hpos := h.pos_of_settled
  have hundrained := h.undrained
  simp only [if_true] at hundrained
  -- The send that is counted off is one of those that were counted.
  have hemptied : w.uncount.1 = decide (w.uncount.2.undrained = 0) :=
    decide_eq_decide.mpr (show w.undrained ≤ 1 ↔ w.undrained - 1 = 0 by omega)
  refine ⟨h.threshold, ?_, fun _ => ?_, ?_, ?_, h.sends, h.entering⟩
  · rw [if_neg (by split <;> simp)]
    simp only [SendWindow.uncount]
    omega
  · rw [hemptied]
    by_cases hz : w.uncount.2.undrained = 0
    · exact .inr (by simp [hz])
    · exact .inl (Nat.pos_of_ne_zero hz)
  · rw [List.foldlM_append, hdebt, hemptied]
    by_cases hz : w.uncount.2.undrained = 0
    · refine ⟨d.lapse, by simp [hz, Debt.after], Debt.lapse_eq_clear.trans hclear, fun _ => .inl ?_⟩
      simp [hz]
    · refine ⟨d, by simp [hz], hclear, fun ho => .inr ((hdue ho).resolve_left (by simp))⟩
  · rw [List.count_append, h.refusals]
    split <;> simp

theorem takeDrain {leaving' : Option Leaving}
    (h : Books room w opens entering leaving sends events due) (hl : leaving ≠ some .settled)
    (hl' : leaving' ≠ some .settled) (due' : Prop) :
    Books room w.takeDrain.2 opens entering leaving' sends
      (events ++ if w.drainOwed then [.drained] else []) due' := by
  obtain ⟨d, hdebt, hclear, hdue⟩ := h.debt
  have hundrained := h.undrained
  rw [if_neg hl] at hundrained
  refine ⟨h.threshold, hundrained.trans (by rw [if_neg hl']), Bool.noConfusion,
    ⟨.clear, ?_, ⟨fun _ => rfl, fun _ => rfl⟩, Debt.noConfusion⟩, ?_, h.sends, h.entering⟩
  · rw [List.foldlM_append, hdebt]
    cases ho : w.drainOwed with
    | true =>
      have hd : d ≠ .clear := by simp [hclear, ho]
      simp [Debt.after, hd]
    | false => simp [hclear.mpr ho]
  · rw [List.count_append, h.refusals]
    split <;> simp

theorem deadline (h : Books room w opens entering none sends events False)
    {deadlines : List WindowEvent} (hd : ∀ e ∈ deadlines, e.isDeadline)
    (hdue : deadlines ≠ [] → due) :
    Books room w opens entering none sends (events ++ deadlines) due := by
  obtain ⟨d, hdebt, hclear, hnone⟩ := h.debt
  refine ⟨h.threshold, h.undrained, h.owed, ⟨if deadlines = [] then d else d.lapse, ?_, ?_, ?_⟩, ?_,
    h.sends, h.entering⟩
  · rw [List.foldlM_append, hdebt]
    exact Debt.foldlM_of_isDeadline hd d
  · split
    · exact hclear
    · exact Debt.lapse_eq_clear.trans hclear
  · split
    · exact fun ho => ((hnone ho).resolve_left nofun).elim
    · next hne => exact fun _ => .inr (hdue hne)
  · have hzero : deadlines.count .refused = 0 := List.count_eq_zero.mpr fun hm => nomatch hd _ hm
    rw [List.count_append, h.refusals, hzero]
    rfl

end Books

namespace Concurrent

variable {ℓ : Type} {c c' : Concurrent ℓ} {room : Nat}

def openSends (c : Concurrent ℓ) : List Sent :=
  c.sends.filter fun send => c.system.client.isOpen send.promise

/-- Between two turns, with no send on its way out. -/
def AtRest (c : Concurrent ℓ) : Prop := c.system.AtRest ∧ c.leaving = none

structure Keeps (room : Nat) (c : Concurrent ℓ) : Prop where
  apart : ∃ past, c.system.SendsApart past (c.sends.map (·.promise))
  books : Books room c.window ((c.sends.map (·.promise)).countP c.system.client.isOpen)
    c.entering c.leaving c.sends c.events (.takeDrain ∈ c.system.agenda)

namespace Keeps

theorem new (id : String) (threshold : Nat) :
    Keeps (max threshold 1) (new id threshold : Concurrent ℓ) where
  apart := ⟨[], .new id threshold⟩
  books := .new threshold _

theorem count (h : Keeps room c) {seen : ClientState} {topic : String} {payload : Payload}
    {options : SendOptions} (hs : c.count seen topic payload options = some c') :
    Keeps room c' := by
  unfold Concurrent.count at hs
  split at hs
  · next he _ =>
    cases hs
    obtain ⟨past, hapart⟩ := h.apart
    exact ⟨⟨past, hapart.withWindow _⟩, (he ▸ h.books).count rfl rfl rfl⟩
  · cases hs

theorem note (h : Keeps room c) (hs : c.note = some c') : Keeps room c' := by
  unfold Concurrent.note at hs
  split at hs
  · cases hs
  · next entry he =>
    split at hs
    · cases hs
    · next hn =>
      cases hs
      rw [not_or, Bool.not_eq_true, Bool.not_eq_true] at hn
      obtain ⟨past, hapart⟩ := h.apart
      exact ⟨⟨past, hapart.withWindow _⟩, (he ▸ h.books).note hn.1 hn.2⟩

theorem submit (h : Keeps room c) {p : PromiseId} (hs : c.submit p = some c') :
    Keeps room c' := by
  unfold Concurrent.submit at hs
  split at hs
  · cases hs
  · next entry he =>
    split at hs
    · next hn =>
      obtain ⟨s, hmake, rfl⟩ := Option.map_eq_some_iff.mp hs
      have hstep : c.system.step (.call entry.seen
          (.send entry.topic entry.payload entry.options) p) = some s := by
        simpa only [System.step, Call.isOffered, if_true] using hmake
      obtain ⟨past, hapart⟩ := h.apart
      have hafter := (hapart.step hstep).withWindow c.window
      have hcount : (c.sends.map (·.promise) ++ [p]).countP s.client.isOpen =
          (c.sends.map (·.promise)).countP c.system.client.isOpen + 1 := hapart.countP_step hstep
      have hagenda : c.system.agenda = s.agenda := System.agenda_step hstep (by simp)
      have hbooks := (he ▸ h.books).submit hn p
      rw [← hcount, hagenda] at hbooks
      exact ⟨⟨_, by rw [List.map_append]; exact hafter⟩, by rw [List.map_append]; exact hbooks⟩
    · cases hs

theorem settle (h : Keeps room c) (hs : c.settle = some c') : Keeps room c' := by
  unfold Concurrent.settle at hs
  split at hs
  · next p result rest hl ha =>
    cases hs
    obtain ⟨past, hapart⟩ := h.apart
    obtain ⟨hafter, hcount⟩ := hapart.settle ha
    have hwindow : (c.system.settle p result rest).client.window = c.window :=
      Client.window_settle ..
    have hbooks := h.books
    rw [hl, ← hcount, ha, ← hwindow] at hbooks
    exact ⟨⟨_, hafter⟩, hbooks.settle.mono (by simp [System.settle])⟩
  · cases hs

theorem uncount (h : Keeps room c) (hs : c.uncount = some c') : Keeps room c' := by
  unfold Concurrent.uncount at hs
  split at hs
  · next hl =>
    cases hs
    obtain ⟨past, hapart⟩ := h.apart
    exact ⟨⟨past, hapart.withWindow _⟩, (hl ▸ h.books).uncount⟩
  · cases hs

theorem drain (h : Keeps room c) (hs : c.drain = some c') : Keeps room c' := by
  unfold Concurrent.drain at hs
  split at hs
  · next hl =>
    cases hs
    obtain ⟨past, hapart⟩ := h.apart
    have hbooks := (hl ▸ h.books).takeDrain (by simp) (show none ≠ some Leaving.settled by simp)
      (Effect.takeDrain ∈ c.system.agenda)
    rw [← System.windowEvents_drainJobs] at hbooks
    exact ⟨⟨past, hapart.adjust _ (by simp)⟩, hbooks⟩
  · cases hs

theorem move (h : Keeps room c) {m : Move ℓ} (hs : c.move m = some c') : Keeps room c' := by
  unfold Concurrent.move at hs
  split at hs
  · next hm =>
    obtain ⟨s, hstep, rfl⟩ := Option.map_eq_some_iff.mp hs
    obtain ⟨past, hapart⟩ := h.apart
    have hsend : m.sendPromises = [] := by
      cases m with
      | call seen call p => cases call <;> first | rfl | cases hm
      | _ => rfl
    have hend : m.endedSends = [] := by
      cases m with
      | perform e => cases e <;> first | rfl | cases hm
      | _ => rfl
    have hafter := hapart.step hstep
    have hcount := hapart.countP_step hstep
    have hwindow (hd : m ≠ .perform .takeDrain) : s.client.window = c.window :=
      System.window_step hstep hsend hend hd
    rw [hsend, List.append_nil] at hafter hcount
    simp only [hend, List.length_nil, Nat.add_zero] at hcount
    have hbooks := h.books
    rw [← hcount] at hbooks
    refine ⟨⟨_, hafter⟩, ?_⟩
    cases m with
    | take x =>
      have hl : c.leaving = none := Option.isNone_iff_eq_none.mp hm
      have handles := hapart.coherent.handles hstep
      obtain ⟨ha, rest, -, rfl⟩ := System.step_take hstep
      rw [hl, ha] at hbooks
      rw [hl]
      refine (hbooks.mono List.not_mem_nil).deadline
        (fun e he => (System.windowEvents_take he).1) fun hne => ?_
      obtain ⟨e, he⟩ := List.exists_mem_of_ne_nil _ hne
      obtain ⟨-, transition, a, ht, ha, hw⟩ := System.windowEvents_take he
      exact handles.takeDrain ht ha (by rw [hw]; rfl)
    | perform e =>
      have hl : c.leaving = none := by
        cases e <;> first | exact Option.isNone_iff_eq_none.mp hm | cases hm
      obtain ⟨rest, ha, rfl⟩ := System.step_perform hstep
      by_cases he : e = .takeDrain
      · subst he
        have hsettled : c.leaving ≠ some .settled := by simp [hl]
        have hafter := hbooks.takeDrain hsettled hsettled (Effect.takeDrain ∈ rest)
        rw [← System.windowEvents_drainJobs] at hafter
        exact hafter
      · have hquiet : e ≠ .notify .drain := by
          rintro rfl
          exact hapart.quiet (ha ▸ List.mem_cons_self)
        have hfinish (p : PromiseId) (result : Outcome) : e ≠ .finishSend p result := by
          rintro rfl
          cases hend
        rw [← hwindow (by simpa using he), ha] at hbooks
        rw [System.windowEvents_perform he hquiet hfinish, List.append_nil]
        exact hbooks.mono fun hd => (List.mem_cons.mp hd).resolve_left (Ne.symm he)
    | _ =>
      have ha := System.agenda_step hstep (by simp)
      rw [← hwindow (by simp), ha] at hbooks
      exact (List.append_nil c.events).symm ▸ hbooks
  · cases hs

theorem tick (h : Keeps room c) {x : Tick ℓ} (hs : c.tick x = some c') : Keeps room c' := by
  cases x with
  | move m => exact h.move hs
  | count seen topic payload options => exact h.count hs
  | note => exact h.note hs
  | submit p => exact h.submit hs
  | settle => exact h.settle hs
  | uncount => exact h.uncount hs
  | drain => exact h.drain hs

theorem of_run {id : String} {threshold : Nat} {ticks : List (Tick ℓ)}
    (h : (Concurrent.new id threshold).run ticks = some c) : Keeps (max threshold 1) c :=
  foldlM_induction (P := fun _ c => Keeps (max threshold 1) c) (new id threshold)
    (fun _ ih hs => ih.tick hs) h

theorem length_openSends (c : Concurrent ℓ) :
    c.openSends.length = (c.sends.map (·.promise)).countP c.system.client.isOpen := by
  rw [openSends, ← List.countP_eq_length_filter, List.countP_map]
  rfl

end Keeps

/-- How the application is kept from sending more than can be sent. -/
structure Accounted (threshold : Nat) (c : Concurrent ℓ) : Prop where
  /-- A send is counted before its signal is posted, and counted off after its promise is
  completed. -/
  undrained : c.window.undrained = c.openSends.length + c.entering.toList.length +
    if c.leaving = some .settled then 1 else 0
  atRest : c.AtRest → c.window.undrained = c.openSends.length + c.entering.toList.length
  /-- Whenever a send is counted off, there is one to count off. -/
  unclamped : c.leaving = some .settled → 0 < c.window.undrained
  /-- A send is refused room if it makes the count reach the threshold. -/
  counted : ∀ seen topic payload options c',
    c.tick (.count seen topic payload options) = some c' → ∃ entry, c'.entering = some entry ∧
      entry.count = c'.window.undrained ∧ (entry.accepting = false ↔ max threshold 1 ≤ entry.count)
  sends : ∀ send ∈ c.sends, send.accepting = false ↔ max threshold 1 ≤ send.count
  /-- A notification is owed only while a send is counted, or until it is taken. -/
  owed : c.window.drainOwed → 0 < c.window.undrained ∨ c.leaving = some .emptied
  refusals : c.events.count .refused = (c.sends.filter (!·.accepting)).length +
    c.entering.toList.countP (·.noted)
  /-- Between two notifications a send was refused room, and so before the first one. -/
  provoked : ∀ before later, c.events = before ++ .drained :: later →
    ∃ earlier between, before = earlier ++ .refused :: between ∧ .drained ∉ between
  /-- After a refusal, the notification has come once the step is over in which the window has
  emptied, the connection is lost, or the session is cleaned up. -/
  prompt : c.leaving ≠ some .emptied → .takeDrain ∉ c.system.agenda →
    ∀ before between deadline later,
      c.events = before ++ .refused :: (between ++ deadline :: later) → deadline.isDeadline →
        .drained ∈ between ++ later

theorem accounted {id : String} {threshold : Nat} {ticks : List (Tick ℓ)}
    (h : (new id threshold).run ticks = some c) : c.Accounted threshold := by
  obtain ⟨-, hbooks⟩ := Keeps.of_run h
  obtain ⟨d, hdebt, hclear, hdue⟩ := hbooks.debt
  have hundrained := hbooks.undrained
  rw [← Keeps.length_openSends] at hundrained
  refine ⟨hundrained, ?_, ?_, ?_, hbooks.sends, hbooks.owed, ?_, ?_, ?_⟩
  · rintro ⟨-, hl⟩
    rw [hundrained, hl]
    rfl
  · intro hl
    exact (hl ▸ hbooks).pos_of_settled
  · intro seen topic payload options c' hs
    have hs : c.count seen topic payload options = some c' := hs
    have hafter := (Keeps.of_run h).count hs
    unfold Concurrent.count at hs
    split at hs
    · cases hs
      exact ⟨_, rfl, rfl, (hafter.books.entering _ rfl).1⟩
    · cases hs
  · rw [← List.countP_eq_length_filter]
    exact hbooks.refusals
  · exact fun before later he => Debt.provoked hdebt he
  · intro hl ha before between deadline later he hd
    exact Debt.paid hdebt (fun ho => (hdue ho).elim hl ha) he hd

/-- A run in which a send comes in while another one goes out. -/
def refuseTwice : List (Tick Unit) :=
  let message : OutboundMessage :=
    { topic := "news", payload := .text "x", qos := .atMostOnce, ttl := none, properties := [] }
  [.count .started message.topic message.payload {}, .note, .submit 0,
    .move (.take (.work (.send ⟨message, 0⟩))), .settle, .uncount,
    .count .started message.topic message.payload {}, .note, .drain, .submit 1]

/-- Both sends are refused room, and one notification comes for both. -/
theorem accounted_refuseTwice : ∃ c, (new "" 1).run refuseTwice = some c ∧
    c.events = [.refused, .emptied, .refused, .drained] ∧ c.window.undrained = 1 ∧
      c.Accounted 1 := by
  have hr : ∃ c : Concurrent Unit, (new "" 1).run refuseTwice = some c ∧
      c.events = [.refused, .emptied, .refused, .drained] ∧ c.window.undrained = 1 :=
    ⟨_, rfl, rfl, rfl⟩
  obtain ⟨c, hc, he, hu⟩ := hr
  exact ⟨c, hc, he, hu, accounted hc⟩

end Concurrent

end PubSub
