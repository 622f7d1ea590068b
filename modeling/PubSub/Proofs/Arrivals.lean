import PubSub.Proofs.Deliveries
import PubSub.Proofs.History

/-! # Where deliveries come from

A delivery that a listener has been handed with a number arrived in the turn of
a message, on the connection of the message and with its tag. No two arrivals
share a number, and whatever is tracked arrived under its number.
-/

namespace PubSub

/-- In its turn the message hands the delivery to a listener, which is to confirm it. -/
def Brings (d : Delivery) (origin : PendingDelivery) (c : Core) (x : Signal) : Prop :=
  ∃ message listener, x = .delivered origin.connection message ∧ message.tag = origin.tag ∧
    .notify (.delivery listener d none) ∈ (c.handle x).effects

def Arrived {ℓ : Type} (past : List (Move ℓ)) (d : Delivery) (origin : PendingDelivery) : Prop :=
  During past (Brings d origin)

namespace Sound

open Turn

variable {lost : ConnectionId → Topic → Prop} {c : Core} {d env : Awaited → Nat} {x : Signal}

/-- Only a message tracks a delivery or hands one with a number to a listener. -/
theorem ties_handle (h : Sound lost c d) (hd : ∀ a, d a = env a + x.awaited.count a)
    (hown : .lookup ∈ x.awaited → env .resume = 0) :
    c.ties.Fades (c.handle x).core.ties ∧ (begin c).Unnumbered (c.handle x) ∨
      ∃ k message row, x = .delivered k message ∧ c.isCurrent k ∧
        c.subscriptions.find? message.subscription = some row ∧
        (c.handle x).core.ties = c.ties.track ⟨k, message.tag⟩ ∧
        (c.handle x).effects = [.notify (.delivery row.listener
          (.ofInbound message (some (c.tracked + 1))) none)] := by
  have hframe {t : Turn} (hf : Frame tiesView (begin c) t) :
      c.ties.Fades t.core.ties ∧ (begin c).Unnumbered t := ⟨.of_eq hf.part, hf.unnumbered⟩
  unfold Core.handle
  by_cases hx : x.isSteady
  · cases x with
    | work w => exact .inl (hframe (frame_onWork _ apart_tiesView w))
    | sent k id result => exact .inl (hframe (frame_onSent _ apart_tiesView k id result))
    | subscribed k topic result =>
      exact .inl (hframe (frame_onSubscribed _ apart_tiesView k topic result))
    | unsubscribed k topic result =>
      exact .inl (hframe (frame_onUnsubscribed _ apart_tiesView k topic result))
    | autoConfirm delivery => exact .inl (hframe (frame_acknowledge _ rfl))
    | confirm id p => exact .inl (fades_onConfirm (begin c) id p)
    | delivered k message =>
      rcases onDelivered_cases (begin c) k message with hf | ⟨hk, row, hrow, hties, heffects⟩
      · exact .inl (hframe hf)
      · exact .inr ⟨k, message, row, rfl, hk, hrow, hties, heffects⟩
    | _ => cases hx
  · refine .inl ?_
    rw [handle_of_not_isSteady _ (by simpa using hx)]
    cases ht : x.trigger? (begin c).core with
    | none => exact ⟨.refl _, .refl _ _⟩
    | some trigger =>
      obtain ⟨m, hm, hc⟩ := h.control.spend hd hown (h.remade_ne_absent hd) ht
      obtain ⟨hties, hfree⟩ := ties_fire (t := (begin c).update x.prepare) hc (by simpa using hm)
      refine ⟨?_, ((Frame.refl numberView _).update rfl).trans hfree⟩
      rw [hties]
      exact (x.fades_prepare c).trans (.actAll ..)

end Sound

namespace System

variable {ℓ : Type} {s s' : System ℓ} {past : List (Move ℓ)}

/-- The deliveries that listeners have been handed, and those that the turn is going to hand. -/
def handed (s : System ℓ) : List Delivery := s.received ++ s.agenda.filterMap Effect.delivery?

theorem handed_step {m : Move ℓ} (h : s.step m = some s') (hm : ∀ x, m ≠ .take x) :
    s'.handed = s.handed := by
  cases step_eq_some.mp h with
  | take => exact absurd rfl (hm _)
  | @perform e rest ha =>
    simp only [handed, perform, ha, List.filterMap_cons]
    cases e.delivery? <;> simp
  | _ => rfl

/-- Deliveries with a number have arrived, each under a number of its own. -/
structure Numbered (past : List (Move ℓ)) (s : System ℓ) : Prop where
  tracked : ∀ e ∈ s.client.core.confirmations, ∃ d, d.confirmation = some e.id ∧
    Arrived past d e.delivery
  bounded : ∀ d origin id, Arrived past d origin → d.confirmation = some id →
    id ≤ s.client.core.tracked
  unique : ∀ d d' origin origin' id, Arrived past d origin → Arrived past d' origin' →
    d.confirmation = some id → d'.confirmation = some id → origin = origin'
  handed : ∀ d ∈ s.handed, d.confirmation ≠ none → ∃ origin, Arrived past d origin

namespace Numbered

theorem new (id : String) (threshold : Nat) : Numbered [] (System.new id threshold : System ℓ) where
  tracked := by simp [System.new, Client.new]
  bounded := fun _ _ _ h => h.of_nil.elim
  unique := fun _ _ _ _ _ h => h.of_nil.elim
  handed := by simp [System.new, System.handed]

theorem congr (h : Numbered past s) {m : Move ℓ}
    (hm : ∀ d origin id, d.confirmation = some id → Arrived (past ++ [m]) d origin →
      Arrived past d origin)
    (ht : s'.client.core.tracked = s.client.core.tracked)
    (hc : ∀ e ∈ s'.client.core.confirmations, e ∈ s.client.core.confirmations)
    (hh : ∀ d ∈ s'.handed, d.confirmation ≠ none → d ∈ s.handed) :
    Numbered (past ++ [m]) s' where
  tracked := fun e he => (h.tracked e (hc e he)).imp fun _ => And.imp id During.append
  bounded := fun d origin id ha hd => ht ▸ h.bounded d origin id (hm d origin id hd ha) hd
  unique := fun d d' origin origin' id ha ha' hd hd' =>
    h.unique d d' origin origin' id (hm _ _ _ hd ha) (hm _ _ _ hd' ha') hd hd'
  handed := fun d hd hne => (h.handed d (hh d hd hne) hne).imp fun _ => During.append

theorem track (h : Numbered past s) {m : Move ℓ} {d₀ : Delivery} {origin₀ : PendingDelivery}
    (hm : ∀ d origin, Arrived (past ++ [m]) d origin ↔
      Arrived past d origin ∨ d = d₀ ∧ origin = origin₀)
    (hd₀ : d₀.confirmation = some (s.client.core.tracked + 1))
    (ht : s'.client.core.ties = s.client.core.ties.track origin₀)
    (hh : ∀ d ∈ s'.handed, d ∈ s.handed ∨ d = d₀) : Numbered (past ++ [m]) s' := by
  have htracked : s'.client.core.tracked = s.client.core.tracked + 1 := congrArg Ties.tracked ht
  have hconf : s'.client.core.confirmations = s.client.core.confirmations ++ [⟨_, origin₀⟩] :=
    congrArg Ties.confirmations ht
  -- The new number is above those of the deliveries before.
  have hfresh {d : Delivery} {origin : PendingDelivery} (ha : Arrived past d origin) :
      d.confirmation ≠ some (s.client.core.tracked + 1) := fun hd =>
    Nat.not_succ_le_self _ (h.bounded d origin _ ha hd)
  refine ⟨?_, ?_, ?_, ?_⟩
  · intro e he
    rw [hconf, List.mem_append, List.mem_singleton] at he
    rcases he with he | rfl
    · exact (h.tracked e he).imp fun _ => And.imp id During.append
    · exact ⟨d₀, hd₀, (hm ..).mpr (.inr ⟨rfl, rfl⟩)⟩
  · intro d origin id ha hd
    rw [htracked]
    rcases (hm d origin).mp ha with ha | ⟨rfl, rfl⟩
    · exact Nat.le_succ_of_le (h.bounded d origin id ha hd)
    · exact (Option.some.inj (hd.symm.trans hd₀)).le
  · intro d d' origin origin' id ha ha' hd hd'
    rcases (hm d origin).mp ha with ha | ⟨rfl, rfl⟩ <;>
      rcases (hm d' origin').mp ha' with ha' | ⟨rfl, rfl⟩
    · exact h.unique d d' origin origin' id ha ha' hd hd'
    · exact absurd ((hd.trans hd'.symm).trans hd₀) (hfresh ha)
    · exact absurd ((hd'.trans hd.symm).trans hd₀) (hfresh ha')
    · rfl
  · intro d hd hne
    rcases hh d hd with hd | rfl
    · exact (h.handed d hd hne).imp fun _ => During.append
    · exact ⟨origin₀, (hm ..).mpr (.inr ⟨rfl, rfl⟩)⟩

theorem move (h : Numbered past s) {m : Move ℓ} (hs : s.step m = some s')
    (hm : ∀ x, m ≠ .take x) : Numbered (past ++ [m]) s' := by
  refine h.congr ?_ (by rw [core_step hs hm]) (fun e he => ?_) (fun d hd _ => ?_)
  · intro d origin id _ ha
    exact During.of_append ha hm
  · rwa [core_step hs hm] at he
  · rwa [handed_step hs hm] at hd

theorem take (hr : Reached past s) (h : Numbered past s) {x : Signal}
    (hs : s.step (.take x) = some s') : Numbered (past ++ [.take x]) s' := by
  have hcore := hr.core_eq
  obtain ⟨hd, hown⟩ := hr.coherent.beside_take hs
  obtain ⟨ha, rest, -, rfl⟩ := step_take hs
  have hbrings (d : Delivery) (origin : PendingDelivery) : Arrived (past ++ [.take x]) d origin ↔
      Arrived past d origin ∨ Brings d origin s.client.core x := by
    rw [hcore]
    exact During.append_take
  have hhanded (d : Delivery) : d ∈ (s.begin x ⟨rest, true⟩).handed ↔
      d ∈ s.handed ∨ ∃ e ∈ (s.client.core.handle x).effects, e.delivery? = some d := by
    simp [System.handed, begin, ha]
  rcases hr.coherent.sound.ties_handle hd fun hl => (hown hl).1 with
    ⟨hfades, -, es, he, hs⟩ | ⟨k, message, row, rfl, -, -, hties, heffects⟩
  · have hnumber (e : Effect) (hm : e ∈ (s.client.core.handle x).effects) : e.number? = none := by
      rw [he] at hm
      exact Option.isNone_iff_eq_none.mp (hs e (by simpa using hm))
    refine h.congr (fun d origin id hd hb => ?_) hfades.tracked hfades.confirmations ?_
    · refine ((hbrings d origin).mp hb).resolve_right ?_
      rintro ⟨message, listener, -, -, hm⟩
      cases hd.symm.trans (hnumber _ hm)
    · intro d hd hne
      refine ((hhanded d).mp hd).resolve_right ?_
      rintro ⟨e, hm, hde⟩
      refine hne ?_
      simpa [Effect.number?, hde] using hnumber e hm
  · have hnew (d : Delivery) (origin : PendingDelivery) :
        Brings d origin s.client.core (.delivered k message) ↔
          d = .ofInbound message (some (s.client.core.tracked + 1)) ∧
            origin = ⟨k, message.tag⟩ := by
      constructor
      · rintro ⟨message', listener, hx, ht, hm⟩
        injection hx with hk hmessage
        subst hmessage
        rw [heffects, List.mem_singleton] at hm
        injection hm with hm
        injection hm with _ hd
        exact ⟨hd, by cases origin; cases hk; cases ht; rfl⟩
      · rintro ⟨rfl, rfl⟩
        exact ⟨message, row.listener, rfl, rfl, by rw [heffects]; exact List.mem_singleton_self _⟩
    have harrived (d : Delivery) (origin : PendingDelivery) :
        Arrived (past ++ [.take (.delivered k message)]) d origin ↔ Arrived past d origin ∨
          d = .ofInbound message (some (s.client.core.tracked + 1)) ∧
            origin = ⟨k, message.tag⟩ := by rw [hbrings, hnew]
    refine h.track harrived rfl hties fun d hd => ?_
    rw [hhanded, heffects] at hd
    simpa [Effect.delivery?, eq_comm] using hd

end Numbered

end System

theorem Reached.numbered {ℓ : Type} {past : List (Move ℓ)} {s : System ℓ} (h : Reached past s) :
    s.Numbered past := by
  exact h.turn_induction (fun id threshold => .new id threshold) (fun _ ih hs hm => ih.move hs hm)
    fun hr ih hs => ih.take hr hs

end PubSub
