import PubSub.Proofs.Marks
import PubSub.Proofs.Rows

/-! # Shapes of rows

While a client is not stopping, a row is in one of a few shapes: settled,
attaching or detaching, broken, or renewing. Which of them there are depends on
the phase.
-/

namespace PubSub

def Work.isOn (topic : Topic) : Work → Bool
  | send _ => false
  | subscribe r => r.params.topic = topic
  | unsubscribe r => r.topic = topic

namespace Subscription

/-- The server has acknowledged the row, and nothing is under way or waits. -/
structure Settled (row : Subscription) : Prop where
  state : row.state = .established
  establishedOnce : row.establishedOnce = true
  subscribing : row.subscribing = none
  unsubscribing : row.unsubscribing = none
  awaiting : row.awaiting = []
  pending : row.pending = []
  remaking : row.remaking = false

structure Attaching (row : Subscription) : Prop where
  state : row.state = .attaching
  establishedOnce : row.establishedOnce = false
  subscribing : row.subscribing.isSome
  unsubscribing : row.unsubscribing = none
  awaiting : row.awaiting = []
  pending : ∀ w ∈ row.pending, w.isOn row.topic
  remaking : row.remaking = false

structure Detaching (row : Subscription) : Prop where
  state : row.state = .detaching
  establishedOnce : row.establishedOnce = true
  subscribing : row.subscribing = none
  unsubscribing : row.unsubscribing.isSome
  awaiting : row.awaiting = []
  pending : ∀ w ∈ row.pending, w.isOn row.topic
  remaking : row.remaking = false

/-- The connection of the row is lost; a subscribe that was under way may be awaited still. -/
structure Broken (row : Subscription) : Prop where
  state : row.state = .broken
  subscribing : row.subscribing = none
  unsubscribing : row.unsubscribing = none
  awaiting : row.awaiting.length ≤ 1
  pending : row.pending = []
  remaking : row.remaking = false

structure Renewing (row : Subscription) : Prop where
  state : row.state = .attaching
  subscribing : row.subscribing = none
  unsubscribing : row.unsubscribing = none
  awaiting : row.awaiting.length ≤ 1
  pending : row.pending = []
  remaking : row.remaking = true

def Live (row : Subscription) : Prop := row.Settled ∨ row.Attaching ∨ row.Detaching

variable {row : Subscription}

@[simp]
theorem topic_interrupt (row : Subscription) : row.interrupt.topic = row.topic := rfl

@[simp]
theorem topic_remake (row : Subscription) : row.remake.topic = row.topic := by
  unfold remake
  split <;> rfl

theorem attaching_new (r : SubscribeRequest) : (new r).Attaching :=
  ⟨rfl, rfl, rfl, rfl, rfl, nofun, rfl⟩

theorem Live.remaking (h : row.Live) : row.remaking = false := by
  rcases h with h | h | h <;> exact h.remaking

theorem Live.awaiting (h : row.Live) : row.awaiting = [] := by
  rcases h with h | h | h <;> exact h.awaiting

theorem Live.attaching (h : row.Live) (hs : row.state = .attaching) : row.Attaching := by
  rcases h with h | h | h
  · exact absurd (h.state.symm.trans hs) nofun
  · exact h
  · exact absurd (h.state.symm.trans hs) nofun

theorem Live.detaching (h : row.Live) (hs : row.state = .detaching) : row.Detaching := by
  rcases h with h | h | h
  · exact absurd (h.state.symm.trans hs) nofun
  · exact absurd (h.state.symm.trans hs) nofun
  · exact h

theorem Live.settled (h : row.Live) (hs : row.state = .established) : row.Settled := by
  rcases h with h | h | h
  · exact h
  · exact absurd (h.state.symm.trans hs) nofun
  · exact absurd (h.state.symm.trans hs) nofun

/-- Work on the topic of the row may wait while an operation is under way. -/
theorem Live.append (h : row.Live) (hs : row.state ≠ .established) {w : Work}
    (hw : w.isOn row.topic) : Live { row with pending := row.pending ++ [w] } := by
  have hp (hr : ∀ w ∈ row.pending, w.isOn row.topic) :
      ∀ v ∈ row.pending ++ [w], v.isOn row.topic := by
    intro v hv
    rcases List.mem_append.mp hv with hv | hv
    · exact hr v hv
    · obtain rfl := List.mem_singleton.mp hv
      exact hw
  rcases h with h | h | h
  · exact absurd h.state hs
  · exact .inr (.inl { h with pending := hp h.pending })
  · exact .inr (.inr { h with pending := hp h.pending })

theorem Live.interrupt (h : row.Live) : row.interrupt.Broken := by
  refine ⟨rfl, rfl, rfl, ?_, rfl, rfl⟩
  simp only [Subscription.interrupt, h.awaiting, List.nil_append]
  cases row.subscribing <;> simp

theorem Broken.interrupt (h : row.Broken) : row.interrupt.Broken := by
  refine ⟨rfl, rfl, rfl, ?_, rfl, rfl⟩
  simpa [Subscription.interrupt, h.subscribing] using h.awaiting

theorem Renewing.interrupt (h : row.Renewing) : row.interrupt.Broken := by
  refine ⟨rfl, rfl, rfl, ?_, rfl, rfl⟩
  simpa [Subscription.interrupt, h.subscribing] using h.awaiting

theorem Broken.remake_eq (h : row.Broken) :
    row.remake = { row with state := .attaching, remaking := true } := by
  simp [remake, isBroken, h.state]

theorem Broken.remake (h : row.Broken) : row.remake.Renewing := by
  rw [h.remake_eq]
  exact ⟨rfl, h.subscribing, h.unsubscribing, h.awaiting, h.pending, rfl⟩

theorem Renewing.settled (h : row.Renewing) :
    Settled { row with
      state := .established, establishedOnce := true, remaking := false, awaiting := [] } :=
  ⟨rfl, rfl, h.subscribing, h.unsubscribing, rfl, h.pending, rfl⟩

end Subscription

namespace RowShape

open Subscription

def Admits (row : Subscription) : RowShape → Prop
  | empty => False
  | settled => row.Settled
  | live => row.Live
  | broken => row.Broken
  | renewing => row.Renewing ∨ row.Settled
  | any => True

variable {r r' : RowShape} {row : Subscription}

theorem Admits.mono (h : r.Admits row) (hle : r.le r') : r'.Admits row := by
  simp only [le, Bool.or_eq_true, decide_eq_true_eq, Bool.and_eq_true] at hle
  rcases hle with (rfl | rfl) | ⟨rfl, -⟩
  · exact h
  · trivial
  · cases h

theorem Admits.interrupt (h : r.Admits row) : r.interrupted.Admits row.interrupt := by
  cases r with
  | empty => cases h
  | settled => exact Live.interrupt (.inl h)
  | live => exact Live.interrupt h
  | broken => exact Broken.interrupt h
  | renewing => exact h.elim (·.interrupt) fun h => Live.interrupt (.inl h)
  | any => trivial

/-- Without a renewal under way, the rows are as after the last one. -/
theorem Admits.renewed (h : r.Admits row) (hr : row.remaking = false) :
    r.renewed.Admits row := by
  cases r with
  | renewing =>
    rcases h with h | h
    · exact absurd (hr.symm.trans h.remaking) nofun
    · exact h
  | _ => exact h

theorem Admits.of_remaking (h : r.Admits row) (hr : row.remaking) : r = .renewing ∨ r = .any := by
  cases r with
  | empty => cases h
  | settled => exact absurd (hr.symm.trans h.remaking) nofun
  | live => exact absurd (hr.symm.trans (Live.remaking h)) nofun
  | broken => exact absurd (hr.symm.trans h.remaking) nofun
  | renewing => exact .inl rfl
  | any => exact .inr rfl

/-- Only live rows have an operation under way that is no renewal. -/
theorem Admits.eq_live (h : r.Admits row) (ha : r ≠ .any)
    (hs : row.state = .detaching ∨ row.state = .attaching ∧ row.remaking = false) : r = .live := by
  have hstate : row.state ≠ .established ∧ row.state ≠ .broken := by
    rcases hs with hs | ⟨hs, -⟩ <;> rw [hs] <;> decide
  cases r with
  | empty => cases h
  | settled => exact absurd h.state hstate.1
  | live => rfl
  | broken => exact absurd h.state hstate.2
  | renewing =>
    rcases h with h | h
    · rcases hs with hs | ⟨-, hr⟩
      · exact absurd (hs.symm.trans h.state) nofun
      · exact absurd (hr.symm.trans h.remaking) nofun
    · exact absurd h.state hstate.1
  | any => exact absurd rfl ha

theorem Admits.detaching (h : r.Admits row) (ha : r ≠ .any) {u : UnsubscribeRequest}
    (hu : row.unsubscribing = some u) : row.Detaching := by
  have hsome : row.unsubscribing ≠ none := by simp [hu]
  cases r with
  | empty => cases h
  | settled | broken => exact absurd h.unsubscribing hsome
  | live =>
    rcases h with h | h | h
    · exact absurd h.unsubscribing hsome
    · exact absurd h.unsubscribing hsome
    · exact h
  | renewing => rcases h with h | h <;> exact absurd h.unsubscribing hsome
  | any => exact absurd rfl ha

end RowShape

namespace Phase

open Subscription

variable {p : Phase} {row : Subscription}

theorem rowShape_of_isStopping (hrow : p.rowShape.Admits row) (hp : p.isStopping) :
    p.rowShape = .any := by
  cases p <;> first | rfl | exact False.elim hrow | exact absurd hp (by decide)

theorem rowShape_ne_any (hp : ¬ p.isStopping) : p.rowShape ≠ .any := by
  revert hp
  cases p <;> decide

theorem eq_started_of_rowShape (h : p.rowShape = .live) : p = .started := by
  revert h
  cases p <;> decide

theorem eq_started_of_attaching (hrow : p.rowShape.Admits row) (hp : ¬ p.isStopping)
    (hs : row.state = .attaching) (hr : row.remaking = false) : p = .started :=
  eq_started_of_rowShape (hrow.eq_live (rowShape_ne_any hp) (.inr ⟨hs, hr⟩))

theorem eq_started_of_detaching (hrow : p.rowShape.Admits row) (hp : ¬ p.isStopping)
    (hs : row.state = .detaching) : p = .started :=
  eq_started_of_rowShape (hrow.eq_live (rowShape_ne_any hp) (.inl hs))

end Phase

end PubSub
