import PubSub.Proofs.Calls

/-! # What is acknowledged

A message with a guarantee that a client takes up leaves a receipt: it is to be
acknowledged by itself once its listener has finished, or under a number when
the application confirms it. What is acknowledged under a number is what the
receipt with that number says, and no number is given twice.
-/

namespace PubSub

open Turn

/-- What is left of a message that is to be acknowledged. It has a number if the application is
to confirm it. -/
structure Receipt where
  number : Option ConfirmationId
  origin : PendingDelivery
  deriving DecidableEq, Repr

namespace Effect

def confirm? : Effect → Option PendingDelivery
  | request (.confirm k tag) => some ⟨k, tag⟩
  | _ => none

/-- What is to be acknowledged once the listener has finished. -/
def promised? : Effect → Option PendingDelivery
  | notify (.delivery _ _ acknowledge) => acknowledge
  | _ => none

/-- Nothing is acknowledged, neither now nor once a listener has finished. -/
def isMute (e : Effect) : Bool := e.confirm?.isNone && e.promised?.isNone

theorem isMute_iff {e : Effect} : e.isMute ↔ e.confirm? = none ∧ e.promised? = none := by
  simp [isMute]

end Effect

def muteView : View Unit := ⟨fun _ => (), Effect.isMute⟩

theorem apart_muteView : muteView.Apart where
  part := fun _ _ _ _ _ _ => rfl
  allows := by
    intro e he
    unfold Effect.isRoutine at he
    split at he <;> first | rfl | cases he

theorem Action.isMute_of_issues {a : Action} {e : Effect} (h : a.issues e) : e.isMute := by
  cases e with
  | request r => cases r <;> first | rfl | cases a <;> cases h
  | notify n => cases n <;> first | rfl | cases a <;> cases h
  | _ => rfl

def Signal.number? : Signal → Option ConfirmationId
  | confirm id _ => some id
  | _ => none

namespace Core

/-- The receipt of the message that the signal brings. A message of a connection that was lost or
of no row is not taken up, and a message without a guarantee leaves no receipt. -/
def receipt? (c : Core) : Signal → Option Receipt
  | .delivered k m =>
    if c.isCurrent k ∧ m.qos ≠ .atMostOnce then
      (c.subscriptions.find? m.subscription).map fun row =>
        ⟨if row.params.autoConfirm then none else some (c.tracked + 1), ⟨k, m.tag⟩⟩
    else none
  | _ => none

/-- What is acknowledged in the turn of the signal, under the number that the signal tells. -/
def confirms (c : Core) (x : Signal) : List Receipt :=
  ((c.handle x).effects.filterMap Effect.confirm?).map (⟨x.number?, ·⟩)

/-- What is to be acknowledged once the listeners that are told in the turn have finished. -/
def promised (c : Core) (x : Signal) : List PendingDelivery :=
  (c.handle x).effects.filterMap Effect.promised?

end Core

def Signal.isMute : Signal → Bool
  | delivered .. | confirm .. | autoConfirm _ => false
  | _ => true

namespace Handles

variable {c : Core} {env : Awaited → Nat} {x : Signal}

/-- Only messages, confirmations and the ends of listeners have to do with acknowledging. -/
theorem mute (h : Handles c env x) (hx : x.isMute) :
    ∀ e ∈ (c.handle x).effects, e.isMute := by
  intro e he
  rcases h.mem_effects he with ⟨hs, -⟩ | ⟨state, rfl⟩ | ⟨a, t, -, hi, -⟩
  · have hframe : Frame muteView (begin c) (c.handle x) := by
      cases x with
      | work w => exact frame_onWork _ apart_muteView w
      | sent k id result => exact frame_onSent _ apart_muteView k id result
      | subscribed k topic result => exact frame_onSubscribed _ apart_muteView k topic result
      | unsubscribed k topic result => exact frame_onUnsubscribed _ apart_muteView k topic result
      | delivered | confirm | autoConfirm => cases hx
      | _ => cases hs
    obtain ⟨es, hes, hmute⟩ := hframe.effects
    rw [hes] at he
    exact hmute e he
  · rfl
  · exact Action.isMute_of_issues hi

/-- A turn acknowledges at most one message, and only on the current connection: that of a
tracked delivery which is confirmed, or that of a listener which has finished. -/
theorem confirms_cases (h : Handles c env x) : c.confirms x = [] ∨
    (∃ id p, ∃ e ∈ c.confirmations, x = .confirm id p ∧ e.id = id ∧
      c.isCurrent e.delivery.connection ∧ c.confirms x = [⟨some id, e.delivery⟩]) ∨
    ∃ d, x = .autoConfirm d ∧ c.isCurrent d.connection ∧ c.confirms x = [⟨none, d⟩] := by
  cases x with
  | confirm id p =>
    have heffects := c.effects_confirm id p
    cases hf : c.confirmations.find? (·.id = id) with
    | none =>
      simp only [hf] at heffects
      exact .inl (by simp [Core.confirms, heffects, Effect.confirm?])
    | some e =>
      simp only [hf] at heffects
      by_cases hk : c.isCurrent e.delivery.connection
      · refine .inr (.inl ⟨id, p, e, List.mem_of_find?_eq_some hf, rfl,
          by simpa using List.find?_some hf, hk, ?_⟩)
        simp [Core.confirms, heffects, hk, Effect.confirm?, Signal.number?]
      · exact .inl (by simp [Core.confirms, heffects, hk, Effect.confirm?])
  | autoConfirm d =>
    by_cases hk : c.isCurrent d.connection
    · refine .inr (.inr ⟨d, rfl, hk, ?_⟩)
      simp [Core.confirms, Core.handle, handle, acknowledge, hk, Effect.confirm?, Signal.number?]
    · exact .inl (by simp [Core.confirms, Core.handle, handle, acknowledge, hk])
  | delivered k m =>
    refine .inl ?_
    simp only [Core.confirms, Core.handle, handle, onDelivered]
    split
    · split
      · rfl
      · split_ifs <;> rfl
    · rfl
  | _ =>
    refine .inl ?_
    rw [Core.confirms, List.map_eq_nil_iff, List.filterMap_eq_nil_iff]
    exact fun e he => (Effect.isMute_iff.mp (h.mute rfl e he)).1

theorem promised_eq (h : Handles c env x) :
    c.promised x = (((c.receipt? x).filter (·.number.isNone)).map (·.origin)).toList := by
  cases x with
  | delivered k m =>
    simp only [Core.promised, Core.handle, handle, onDelivered, core_begin, Core.receipt?]
    by_cases hk : c.isCurrent k
    · cases c.subscriptions.find? m.subscription with
      | none => simp [hk]
      | some row =>
        by_cases hq : m.qos = .atMostOnce <;> by_cases ha : row.params.autoConfirm <;>
          simp [hk, hq, ha, Effect.promised?, Option.filter]
    · simp [hk]
  | confirm id p =>
    rw [Core.promised, Core.effects_confirm]
    cases c.confirmations.find? (·.id = id) with
    | none => rfl
    | some e =>
      by_cases hk : c.isCurrent e.delivery.connection <;>
        simp [hk, Effect.promised?, Core.receipt?]
  | autoConfirm d =>
    by_cases hk : c.isCurrent d.connection <;>
      simp [Core.promised, Core.handle, handle, acknowledge, hk, Core.receipt?, Effect.promised?]
  | _ =>
    rw [Core.promised, List.filterMap_eq_nil_iff.mpr]
    · rfl
    · exact fun e he => (Effect.isMute_iff.mp (h.mute rfl e he)).2

end Handles

namespace Core

variable (c : Core)

/-- A message leaves a receipt with the next number and is tracked under it, or what is tracked
stays as it is. -/
theorem ties_delivered (k : ConnectionId) (m : InboundMessage) :
    (c.receipt? (.delivered k m)).bind (·.number) = none ∧
        (c.handle (.delivered k m)).core.ties = c.ties ∨
      ∃ origin, c.receipt? (.delivered k m) = some ⟨some (c.tracked + 1), origin⟩ ∧
        (c.handle (.delivered k m)).core.ties = c.ties.track origin := by
  simp only [handle, Turn.handle, onDelivered, core_begin, receipt?]
  by_cases hk : c.isCurrent k
  · cases c.subscriptions.find? m.subscription with
    | none => exact .inl (by simp [hk])
    | some row =>
      by_cases hq : m.qos = .atMostOnce
      · exact .inl (by simp [hk, hq])
      · by_cases ha : row.params.autoConfirm
        · exact .inl (by simp [hk, hq, ha])
        · exact .inr ⟨⟨k, m.tag⟩, by simp [hk, hq, ha], by simp [hk, hq, ha, ties, Ties.track]⟩
  · exact .inl (by simp [hk])

/-- A listener is handed the delivery with the number of the receipt. If that has none, then it is
to be acknowledged once the listener has finished. -/
theorem notifies_delivered {k : ConnectionId} {m : InboundMessage} {l : ListenerId}
    {d : Delivery} {acknowledge : Option PendingDelivery}
    (h : .notify (.delivery l d acknowledge) ∈ (c.handle (.delivered k m)).effects) :
    m.qos = .atMostOnce ∧ c.receipt? (.delivered k m) = none ∧ d = .ofInbound m none ∧
        acknowledge = none ∨
      ∃ number, c.receipt? (.delivered k m) = some ⟨number, ⟨k, m.tag⟩⟩ ∧
        d = .ofInbound m number ∧
        acknowledge = if number.isNone then some ⟨k, m.tag⟩ else none := by
  simp only [handle, Turn.handle, onDelivered, core_begin] at h
  by_cases hk : c.isCurrent k
  · cases hf : c.subscriptions.find? m.subscription with
    | none => simp [hk, hf] at h
    | some row =>
      by_cases hq : m.qos = .atMostOnce
      · simp only [hk, hf, hq, if_true, effects_notify, effects_begin, List.nil_append,
          List.mem_singleton] at h
        cases h
        exact .inl ⟨hq, by simp [receipt?, hq], rfl, rfl⟩
      · refine .inr ⟨if row.params.autoConfirm then none else some (c.tracked + 1),
          by simp [receipt?, hk, hf, hq], ?_⟩
        by_cases ha : row.params.autoConfirm
        · simp [hk, hf, hq, ha] at h
          simp [ha, h]
        · simp [hk, hf, hq, ha] at h
          simp [ha, h]
  · simp [hk] at h

theorem confirmations_confirm (id : ConfirmationId) (p : PromiseId) :
    (c.handle (.confirm id p)).core.confirmations = c.confirmations.filter (·.id ≠ id) := by
  cases hf : c.confirmations.find? (·.id = id) with
  | none =>
    have hkept : (c.handle (.confirm id p)).core.confirmations = c.confirmations := by
      simp [handle, Turn.handle, onConfirm, hf]
    rw [hkept, List.filter_eq_self.mpr]
    simpa using hf
  | some e =>
    simp only [handle, Turn.handle, onConfirm, core_begin, hf, acknowledge]
    split <;> rfl

end Core

section Runs

variable {ℓ : Type}

def receipts (past : List (Move ℓ)) : List Receipt :=
  (turns past).filterMap fun t => t.1.receipt? t.2

def confirms (past : List (Move ℓ)) : List Receipt := (turns past).flatMap fun t => t.1.confirms t.2

theorem receipts_take (past : List (Move ℓ)) (x : Signal) :
    receipts (past ++ [.take x]) = receipts past ++ ((Core.after past).receipt? x).toList := by
  rw [receipts, turns_take, List.filterMap_append]
  cases h : (Core.after past).receipt? x <;> simp [receipts, h]

theorem confirms_take (past : List (Move ℓ)) (x : Signal) :
    confirms (past ++ [.take x]) = confirms past ++ (Core.after past).confirms x := by
  simp [confirms, turns_take]

theorem receipts_of_ne_take (past : List (Move ℓ)) {m : Move ℓ} (hm : ∀ x, m ≠ .take x) :
    receipts (past ++ [m]) = receipts past := by
  rw [receipts, turns_of_ne_take past hm, receipts]

theorem confirms_of_ne_take (past : List (Move ℓ)) {m : Move ℓ} (hm : ∀ x, m ≠ .take x) :
    confirms (past ++ [m]) = confirms past := by
  rw [confirms, turns_of_ne_take past hm, confirms]

def Receipt.numbers (rs : List Receipt) : List ConfirmationId := rs.filterMap (·.number)

theorem Receipt.mem_numbers {rs : List Receipt} {id : ConfirmationId} :
    id ∈ numbers rs ↔ ∃ origin, ⟨some id, origin⟩ ∈ rs := by
  rw [numbers, List.mem_filterMap]
  constructor
  · rintro ⟨⟨number, origin⟩, hr, rfl⟩
    exact ⟨origin, hr⟩
  · rintro ⟨origin, hr⟩
    exact ⟨_, hr, rfl⟩

theorem Receipt.numbers_append (rs rs' : List Receipt) :
    numbers (rs ++ rs') = numbers rs ++ numbers rs' := List.filterMap_append

theorem Receipt.count_le_count_numbers (rs : List Receipt) (id : ConfirmationId)
    (origin : PendingDelivery) : rs.count ⟨some id, origin⟩ ≤ (numbers rs).count id := by
  rw [numbers, List.count_filterMap]
  refine List.countP_mono_left fun r _ hr => ?_
  obtain rfl := eq_of_beq hr
  exact beq_self_eq_true _

/-- What is acknowledged under a number has a receipt with that number, and every number is given
and used once. -/
structure System.Receipted (past : List (Move ℓ)) (s : System ℓ) : Prop where
  bounded : ∀ id ∈ Receipt.numbers (receipts past), id ≤ s.client.core.tracked
  distinct : (Receipt.numbers (receipts past)).Nodup
  tracked : ∀ e ∈ s.client.core.confirmations, ⟨some e.id, e.delivery⟩ ∈ receipts past
  confirmed : ∀ id origin, ⟨some id, origin⟩ ∈ confirms past →
    ⟨some id, origin⟩ ∈ receipts past ∧ ∀ e ∈ s.client.core.confirmations, e.id ≠ id
  once : (Receipt.numbers (confirms past)).Nodup

namespace System.Receipted

variable {s s' : System ℓ} {past : List (Move ℓ)} {m : Move ℓ}

theorem new (id : String) (threshold : Nat) :
    Receipted [] (System.new id threshold : System ℓ) where
  bounded := by simp [receipts, turns, turnsFrom, Receipt.numbers]
  distinct := List.nodup_nil
  tracked := by simp [System.new, Client.new]
  confirmed := by simp [confirms, turns, turnsFrom]
  once := List.nodup_nil

theorem track (h : Receipted past s) {origin : PendingDelivery}
    (hr : receipts (past ++ [m]) = receipts past ++ [⟨some (s.client.core.tracked + 1), origin⟩])
    (hc : confirms (past ++ [m]) = confirms past)
    (ht : s'.client.core.ties = s.client.core.ties.track origin) : Receipted (past ++ [m]) s' := by
  have htracked : s'.client.core.tracked = s.client.core.tracked + 1 := congrArg Ties.tracked ht
  have hconf : s'.client.core.confirmations = s.client.core.confirmations ++ [⟨_, origin⟩] :=
    congrArg Ties.confirmations ht
  have hnumbers : Receipt.numbers (receipts (past ++ [m])) =
      Receipt.numbers (receipts past) ++ [s.client.core.tracked + 1] := by
    simp [hr, Receipt.numbers]
  have hfresh : s.client.core.tracked + 1 ∉ Receipt.numbers (receipts past) := fun hm =>
    Nat.not_succ_le_self _ (h.bounded _ hm)
  constructor
  case bounded =>
    intro id hid
    rw [hnumbers, List.mem_append, List.mem_singleton] at hid
    rw [htracked]
    exact hid.elim (fun hid => Nat.le_succ_of_le (h.bounded id hid)) (·.le)
  case distinct =>
    rw [hnumbers, ← List.concat_eq_append]
    exact h.distinct.concat hfresh
  case tracked =>
    intro e he
    rw [hconf, List.mem_append, List.mem_singleton] at he
    rw [hr, List.mem_append, List.mem_singleton]
    rcases he with he | rfl
    · exact .inl (h.tracked e he)
    · exact .inr rfl
  case confirmed =>
    intro id origin' hmem
    rw [hc] at hmem
    obtain ⟨hreceipt, hnone⟩ := h.confirmed id origin' hmem
    refine ⟨hr ▸ List.mem_append_left _ hreceipt, fun e he => ?_⟩
    rw [hconf, List.mem_append, List.mem_singleton] at he
    rcases he with he | rfl
    · exact hnone e he
    · rintro rfl
      exact hfresh (Receipt.mem_numbers.mpr ⟨_, hreceipt⟩)
  case once =>
    rw [hc]
    exact h.once

theorem fade (h : Receipted past s) {rs : List Receipt} (hrs : Receipt.numbers rs = [])
    (hr : receipts (past ++ [m]) = receipts past ++ rs)
    {cs : List Receipt} (hcs : Receipt.numbers cs = [])
    (hc : confirms (past ++ [m]) = confirms past ++ cs)
    (ht : s.client.core.ties.Fades s'.client.core.ties) : Receipted (past ++ [m]) s' := by
  have hnumbers : Receipt.numbers (receipts (past ++ [m])) = Receipt.numbers (receipts past) := by
    rw [hr, Receipt.numbers_append, hrs, List.append_nil]
  have hconfirmed : Receipt.numbers (confirms (past ++ [m])) = Receipt.numbers (confirms past) := by
    rw [hc, Receipt.numbers_append, hcs, List.append_nil]
  have htracked : s'.client.core.tracked = s.client.core.tracked := ht.tracked
  constructor
  case bounded =>
    intro id hid
    rw [htracked]
    exact h.bounded id (hnumbers ▸ hid)
  case distinct =>
    rw [hnumbers]
    exact h.distinct
  case tracked =>
    intro e he
    rw [hr]
    exact List.mem_append_left _ (h.tracked e (ht.confirmations e he))
  case confirmed =>
    intro id origin hmem
    rw [hc, List.mem_append] at hmem
    have hold : ⟨some id, origin⟩ ∈ confirms past := hmem.resolve_right fun hcs' => by
      have hid := Receipt.mem_numbers.mpr ⟨origin, hcs'⟩
      simp [hcs] at hid
    obtain ⟨hreceipt, hnone⟩ := h.confirmed id origin hold
    exact ⟨hr ▸ List.mem_append_left _ hreceipt, fun e he => hnone e (ht.confirmations e he)⟩
  case once =>
    rw [hconfirmed]
    exact h.once

theorem confirm (h : Receipted past s) {e : TrackedDelivery} (he : e ∈ s.client.core.confirmations)
    (hr : receipts (past ++ [m]) = receipts past)
    (hc : confirms (past ++ [m]) = confirms past ++ [⟨some e.id, e.delivery⟩])
    (htracked : s'.client.core.tracked = s.client.core.tracked)
    (hconf : s'.client.core.confirmations = s.client.core.confirmations.filter (·.id ≠ e.id)) :
    Receipted (past ++ [m]) s' := by
  have hfresh : e.id ∉ Receipt.numbers (confirms past) := by
    intro hid
    obtain ⟨origin, hmem⟩ := Receipt.mem_numbers.mp hid
    exact (h.confirmed _ origin hmem).2 e he rfl
  have hnumbers : Receipt.numbers (confirms (past ++ [m])) =
      Receipt.numbers (confirms past) ++ [e.id] := by rw [hc, Receipt.numbers_append]; rfl
  refine ⟨?_, by rw [hr]; exact h.distinct, fun e' he' => ?_, fun id origin hmem => ?_, ?_⟩
  · rw [hr, htracked]
    exact h.bounded
  · rw [hr]
    exact h.tracked e' (List.mem_of_mem_filter (hconf ▸ he'))
  · rw [hr, hconf]
    rw [hc, List.mem_append, List.mem_singleton] at hmem
    rcases hmem with hmem | hmem
    · obtain ⟨hreceipt, hnone⟩ := h.confirmed id origin hmem
      exact ⟨hreceipt, fun e' he' => hnone e' (List.mem_of_mem_filter he')⟩
    · injection hmem with hid horigin
      obtain rfl := Option.some.inj hid
      exact ⟨horigin ▸ h.tracked e he, fun e' he' => by simpa using (List.mem_filter.mp he').2⟩
  · rw [hnumbers, ← List.concat_eq_append]
    exact h.once.concat hfresh

theorem take (hr : Reached past s) (h : Receipted past s) {x : Signal}
    (hs : s.step (.take x) = some s') : Receipted (past ++ [.take x]) s' := by
  have hcore := hr.core_eq
  have hhandles := hr.handles hs
  obtain ⟨hd, hown⟩ := hr.coherent.beside_take hs
  obtain ⟨-, rest, -, rfl⟩ := step_take hs
  have hreceipts := receipts_take past x
  have hconfirms := confirms_take past x
  rw [← hcore] at hreceipts hconfirms
  have hfades : (∀ k message, x ≠ .delivered k message) →
      s.client.core.ties.Fades (s.client.core.handle x).core.ties := by
    intro hx
    rcases hr.coherent.sound.ties_handle hd fun hl => (hown hl).1 with
      ⟨hf, -⟩ | ⟨k, message, row, rfl, -⟩
    · exact hf
    · exact absurd rfl (hx k message)
  rcases hhandles.confirms_cases with hnone | ⟨id, p, e, he, rfl, rfl, -, heq⟩ | ⟨d, rfl, -, heq⟩
  · rw [hnone] at hconfirms
    by_cases hx : ∃ k message, x = .delivered k message
    · obtain ⟨k, message, rfl⟩ := hx
      rcases s.client.core.ties_delivered k message with ⟨hnumber, hties⟩ | ⟨origin, ho, hties⟩
      · refine h.fade ?_ hreceipts rfl hconfirms (.of_eq hties)
        cases hreceipt : s.client.core.receipt? (.delivered k message) with
        | none => rfl
        | some r => simpa [hreceipt, Receipt.numbers] using hnumber
      · rw [ho] at hreceipts
        exact h.track hreceipts (by simpa using hconfirms) hties
    · have hx : ∀ k message, x ≠ .delivered k message := by simpa using hx
      refine h.fade ?_ hreceipts rfl hconfirms (hfades hx)
      cases x with
      | delivered k message => exact absurd rfl (hx k message)
      | _ => rfl
  · rw [heq] at hconfirms
    refine h.confirm he (by simpa [Core.receipt?] using hreceipts) hconfirms ?_ ?_
    · exact (hfades (by simp)).tracked
    · exact s.client.core.confirmations_confirm e.id p
  · rw [heq] at hconfirms
    exact h.fade rfl hreceipts rfl hconfirms (hfades (by simp))

end System.Receipted

theorem System.Receipted.count_le {past : List (Move ℓ)} {s : System ℓ} (h : s.Receipted past)
    (id : ConfirmationId) (origin : PendingDelivery) :
    (confirms past).count ⟨some id, origin⟩ ≤ (receipts past).count ⟨some id, origin⟩ := by
  by_cases hmem : (⟨some id, origin⟩ : Receipt) ∈ confirms past
  · have honce := List.nodup_iff_count_le_one.mp h.once id
    have hpos := List.count_pos_iff.mpr (h.confirmed id origin hmem).1
    exact ((Receipt.count_le_count_numbers ..).trans honce).trans hpos
  · rw [List.count_eq_zero.mpr hmem]
    exact Nat.zero_le _

theorem Reached.receipted {past : List (Move ℓ)} {s : System ℓ} (h : Reached past s) :
    s.Receipted past := by
  refine h.turn_induction (fun id threshold => .new id threshold) ?_ fun hr ih hs => ih.take hr hs
  · intro past s m s' hr ih hs hm
    have hreceipts : receipts (past ++ [m]) = receipts past ++ [] := by
      rw [receipts_of_ne_take past hm, List.append_nil]
    have hconfirms : confirms (past ++ [m]) = confirms past ++ [] := by
      rw [confirms_of_ne_take past hm, List.append_nil]
    exact ih.fade rfl hreceipts rfl hconfirms (.of_eq (by rw [System.core_step hs hm]))

end Runs

end PubSub
