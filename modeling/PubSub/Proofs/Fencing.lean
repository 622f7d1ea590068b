import PubSub.Proofs.SendOrder

/-! # Superseded signals

What comes from a connection that is not the current one changes nothing, and
neither does the end of a timer that is no longer set. Most handlers compare the
connection of a signal with the current one. The answer to a send is compared
with the connection that the send was passed on, and that is the current one as
long as the send is not answered.
-/

namespace PubSub

open Turn

variable {ℓ : Type}

/-- The signal is that of a connection or timer which is not the current one. -/
def Signal.IsSuperseded (c : Core) : Signal → Prop
  | opened k _ | closed k | sent k _ _ | subscribed k _ _ | unsubscribed k _ _ | delivered k _
  | disconnected k _ => c.connection ≠ some k
  | autoConfirm d => c.connection ≠ some d.connection
  | timerEnded n _ => c.timer ≠ some n
  | _ => False

namespace Phase

/-- A client whose connection is over looks for another one or has cleaned up, unless the server
has replaced a connection that is still to be closed. -/
theorem next_of_disconnects {p : Phase} {trigger : Trigger} (hp : p.isConnected)
    (hs : p.marks.spend trigger ≠ none) (ht : trigger.disconnects) :
    ∃ n ∈ p.transition trigger, n.next.isConnecting ∨ n.next = stoppingFlush ∨
      trigger = .replaced ∧ ∀ a ∈ n.actions, a.connects = false := by
  revert p trigger
  decide

end Phase

/-- A connection that the server replaces is not forgotten before it is closed. -/
theorem Signal.connection_prepare_replaced {x : Signal} {c : Core}
    (ht : x.trigger? c = some .replaced) : (x.prepare c).connection = c.connection := by
  cases trigger?_eq_some_iff.mp ht with
  | replaced k cause => simp [prepare, Core.recordError_eq]

namespace Handles

variable {c : Core} {env : Awaited → Nat} {x : Signal} {k : ConnectionId}

/-- A client that no longer has its connection is connecting or has cleaned up. -/
theorem keeps_or_idles (h : Handles c env x) (hk : c.connection = some k)
    (hp : c.phase.isConnected) : (c.handle x).core.connection = some k ∨
      (c.handle x).core.phase.isConnecting ∨ (c.handle x).core.phase = .stoppingFlush := by
  rcases h.ends_or_keeps hk hp with hends | hkeeps
  · obtain ⟨trigger, ht, hd⟩ := hends.trigger
    obtain ⟨⟨next, actions⟩, hn, hnext⟩ := Phase.next_of_disconnects hp (h.spend ht) hd
    rw [h.phase_of_transition ht hn]
    rcases hnext with hnext | hnext | ⟨rfl, hkeeps⟩
    · exact .inr (.inl hnext)
    · exact .inr (.inr hnext)
    · obtain ⟨m, m', -, hc, ha⟩ := h.control_of_transition ht hn
      rw [Core.handle_of_transition ht hn, connection_performAll hc ha hkeeps, Core.core_entering]
      exact .inl ((Signal.connection_prepare_replaced ht).trans hk)
  · exact .inl hkeeps

end Handles

theorem Carries.mem_outstanding {c : Core} {x : Signal} {d d' : Traffic} (h : Carries c x d d')
    {send : OutstandingSend} (hs : send ∈ d'.outstanding) :
    send ∈ d.outstanding ∨ ∃ new, Passes c x d new ∧ send ∈ new := by
  cases h with
  | passes hx policy current =>
    exact (List.mem_append.mp hs).imp id
      fun hs => ⟨_, .new hx (Phase.eq_started_of_accept policy) current, hs⟩
  | resumes performs current =>
    exact (List.mem_append.mp hs).imp id fun hs => ⟨_, .kept performs current, hs⟩
  | answers hx found final => exact .inl (List.mem_of_mem_filter hs)
  | interrupts | closes | interruptsAndCloses => cases hs
  | _ => exact .inl hs

structure System.Fenced (s : System ℓ) (x : Signal) : Prop where
  /-- The core stays as it is, and no effect is issued. -/
  turn : s.client.core.handle x = Turn.begin s.client.core
  /-- Its turn takes it out of the mailbox and changes nothing else. -/
  step : s.step (.take x) = if s.agenda = [] ∧ s.client.mailbox.next.1 = some x then
    some { s with client := { s.client with mailbox := s.client.mailbox.next.2 } } else none

namespace Reached

variable {s : System ℓ} {past : List (Move ℓ)} {x : Signal}

theorem sends_current (h : Reached past s) :
    ∀ send ∈ s.client.core.outstanding, s.client.core.connection = some send.connection := by
  refine h.turn_induction (P := fun _ s => ∀ send ∈ s.client.core.outstanding,
    s.client.core.connection = some send.connection)
    (fun _ _ => by simp [System.new, Client.new]) ?_ ?_
  · intro past s m s' hr ih hs hm
    rwa [System.core_step hs hm]
  · intro past s x s' hr ih hs
    have hh := hr.handles hs
    have hcarries := hr.carries_current hs
    have hr' := hr.step hs
    have hidle := hr'.inOrder.idle
    have hflushing := hr'.coherent.sound.tracking.idle
    rw [Traffic.outstanding_after, ← hr'.core_eq] at hidle
    intro send hsend
    -- The send was passed on the connection that was current before the turn.
    have hold : s.client.core.connection = some send.connection := by
      have hsend' : send ∈ (Traffic.after (past ++ [Move.take x])).outstanding := by
        rwa [Traffic.outstanding_after, ← hr'.core_eq]
      rcases hcarries.mem_outstanding hsend' with hbefore | ⟨new, hpasses, hnew⟩
      · exact ih send (by rwa [Traffic.outstanding_after, ← hr.core_eq] at hbefore)
      · exact hpasses.connection hh hnew
    have hconnected := hr.isSome_connection_iff.mp (by rw [hold]; rfl)
    obtain ⟨-, rest, -, rfl⟩ := System.step_take hs
    -- If it is not current any more, no send is left.
    rcases hh.keeps_or_idles hold hconnected with hkeeps | hconnecting | hphase
    · exact hkeeps
    · rw [hidle hconnecting] at hsend
      cases hsend
    · have hnone := (hflushing (by simp [System.begin, hphase, Phase.marks])).2
      rw [hnone] at hsend
      cases hsend

theorem handle_superseded (h : Reached past s) (hx : x.IsSuperseded s.client.core) :
    s.client.core.handle x = begin s.client.core := by
  have hcurrent {k : ConnectionId} (hk : s.client.core.connection ≠ some k) :
      s.client.core.isCurrent k = false := decide_eq_false hk
  cases x with
  | sent k id result =>
    rw [Core.handle, Turn.handle, onSent, core_begin]
    split
    · rfl
    · next send hf =>
      have hsend := h.sends_current send (List.mem_of_find?_eq_some hf)
      have hne : send.connection ≠ k := fun he => hx (he ▸ hsend)
      rw [if_pos hne]
  | timerEnded n popped =>
    rw [Core.handle, Turn.handle, onTimerEnded, core_begin, if_neg hx]
  | opened k | closed k | subscribed k | unsubscribed k | delivered k | disconnected k =>
    simp [Core.handle, Turn.handle, onOpened, onClosed, onSubscribed, onUnsubscribed, onDelivered,
      onDisconnected, hcurrent hx]
  | autoConfirm d => simp [Core.handle, Turn.handle, acknowledge, hcurrent hx]
  | _ => cases hx

theorem superseded_fenced (h : Reached past s) (hx : x.IsSuperseded s.client.core) :
    s.Fenced x := by
  have hturn := h.handle_superseded hx
  refine ⟨hturn, ?_⟩
  rw [System.step]
  split
  · next hnext =>
    rw [System.begin, hturn, core_begin, effects_begin, ← hnext.1]
  · rfl

/-- A run in which the first connection answers a send that has been passed again on the third. -/
def answerTooLate : List (Move Unit) := resendTwice ++ [.answer (.sent ⟨1⟩ 1) (.ok ())]

set_option maxRecDepth 8000 in
theorem superseded_fenced_answerTooLate : ∃ s, Reached answerTooLate s ∧
    s.client.core.outstanding.map (·.connection) = [⟨3⟩, ⟨3⟩, ⟨3⟩] ∧
    s.client.mailbox.next.1 = some (.sent ⟨1⟩ 1 (.ok ())) ∧ s.Fenced (.sent ⟨1⟩ 1 (.ok ())) := by
  have hr : ∃ s, (System.new "" 1).run answerTooLate = some s ∧
      s.client.core.outstanding.map (·.connection) = [⟨3⟩, ⟨3⟩, ⟨3⟩] ∧
      s.client.mailbox.next.1 = some (.sent ⟨1⟩ 1 (.ok ())) ∧
      s.client.core.connection = some ⟨3⟩ := ⟨_, rfl, rfl, rfl, rfl⟩
  obtain ⟨s, hs, hout, hnext, hk⟩ := hr
  have hx : (Signal.sent ⟨1⟩ 1 (.ok ())).IsSuperseded s.client.core := by
    simp [Signal.IsSuperseded, hk]
  exact ⟨s, ⟨"", 1, hs⟩, hout, hnext, superseded_fenced ⟨"", 1, hs⟩ hx⟩

end Reached

end PubSub
