import PubSub.Proofs.Sound

/-! # Answers to subscribes and unsubscribes

An answer counts if it comes on the current connection and does not tell that
the connection is lost. It finds the row that has waited for it then, and the
row and the phase decide what it means.
-/

namespace PubSub

open Turn

namespace Core

/-- What the turn of an answer to a subscribe does: nothing if the answer comes too late or tells
of a lost connection, and otherwise it ends what its row was busy with. -/
inductive OnSubscribed (c : Core) (k : ConnectionId) (topic : Topic) (answer : Outcome) : Prop
  | ignored (late : c.connection ≠ some k ∨ answer.isRetryable)
    (eq : c.handle (.subscribed k topic answer) = begin c)
  | stopping {row : Subscription} (current : c.connection = some k)
    (found : c.subscriptions.find? topic = some row) (stopping : c.phase.isStopping)
    (eq : c.handle (.subscribed k topic answer) = (begin c).onSubscribedStopping row)
  | remade {row : Subscription} (current : c.connection = some k)
    (found : c.subscriptions.find? topic = some row) (renewing : row.Renewing)
    (goesOn : ¬ c.phase.isStopping) (final : ¬ answer.isRetryable)
    (eq : c.handle (.subscribed k topic answer) = (begin c).onRemade row answer)
  | attached {row : Subscription} (current : c.connection = some k)
    (found : c.subscriptions.find? topic = some row) (attaching : row.Attaching)
    (started : c.phase = .started) (final : ¬ answer.isRetryable)
    (eq : c.handle (.subscribed k topic answer) = (begin c).onAttached row answer)

/-- What the turn of an answer to an unsubscribe does. While the client stops, that is nothing
either, and the row goes with the session. -/
inductive OnUnsubscribed (c : Core) (k : ConnectionId) (topic : Topic) (answer : Outcome) : Prop
  | ignored (late : c.connection ≠ some k ∨ answer.isRetryable ∨ c.phase.isStopping)
    (eq : c.handle (.unsubscribed k topic answer) = begin c)
  | detached {row : Subscription} (current : c.connection = some k)
    (found : c.subscriptions.find? topic = some row) (detaching : row.Detaching)
    (started : c.phase = .started) (final : ¬ answer.isRetryable)
    (eq : c.handle (.unsubscribed k topic answer) = (begin c).onDetached row answer)

end Core

namespace Sound

variable {lost : ConnectionId → Topic → Prop} {c : Core} {d env : Awaited → Nat}

theorem subscribed_cases (h : Sound lost c d) {k : ConnectionId} {topic : Topic} {answer : Outcome}
    (hd : ∀ a, d a = env a + (Signal.subscribed k topic answer).awaited.count a) :
    c.OnSubscribed k topic answer := by
  have hturn : c.handle (.subscribed k topic answer) = (begin c).onSubscribed k topic answer := rfl
  rw [Turn.onSubscribed, core_begin] at hturn
  by_cases hcur : c.isCurrent k
  · have hk : c.connection = some k := of_decide_eq_true hcur
    obtain ⟨-, -, row, hf, hst⟩ := h.tracking.attaching_of_subscribed hk hd
    have hadm := h.tracking.shape row (Subscriptions.find?_eq_some hf).1
    simp only [hcur, if_true, hf] at hturn
    split_ifs at hturn with hr hstop hrem
    · exact .ignored (.inr hr) hturn
    · exact .stopping hk hf hstop hturn
    · refine .remade hk hf ?_ hstop hr hturn
      rw [Phase.marks, (RowShape.Admits.of_remaking hadm hrem).resolve_right
        (Phase.rowShape_ne_any hstop)] at hadm
      exact hadm.resolve_right fun hs => by simp [hs.remaking] at hrem
    · have hp := Phase.eq_started_of_attaching hadm hstop hst (by simpa using hrem)
      rw [hp] at hadm
      exact .attached hk hf (Subscription.Live.attaching hadm hst) hp hr hturn
  · exact .ignored (.inl (by simpa [Core.isCurrent] using hcur)) (by simpa [hcur] using hturn)

theorem unsubscribed_cases (h : Sound lost c d) {k : ConnectionId} {topic : Topic}
    {answer : Outcome}
    (hd : ∀ a, d a = env a + (Signal.unsubscribed k topic answer).awaited.count a) :
    c.OnUnsubscribed k topic answer := by
  have hturn : c.handle (.unsubscribed k topic answer) = (begin c).onUnsubscribed k topic answer :=
    rfl
  rw [Turn.onUnsubscribed, core_begin] at hturn
  by_cases hcur : c.isCurrent k
  · have hk : c.connection = some k := of_decide_eq_true hcur
    obtain ⟨-, -, row, hf, hst⟩ := h.tracking.detaching_of_unsubscribed hk hd
    have hadm := h.tracking.shape row (Subscriptions.find?_eq_some hf).1
    simp only [hcur, if_true, hf] at hturn
    split_ifs at hturn with hstop
    · exact .ignored (.inr (by simpa using hstop)) hturn
    · rw [Bool.or_eq_true, not_or] at hstop
      have hp := Phase.eq_started_of_detaching hadm hstop.2 hst
      rw [hp] at hadm
      exact .detached hk hf (Subscription.Live.detaching hadm hst) hp hstop.1 hturn
  · exact .ignored (.inl (by simpa [Core.isCurrent] using hcur)) (by simpa [hcur] using hturn)

end Sound

end PubSub
