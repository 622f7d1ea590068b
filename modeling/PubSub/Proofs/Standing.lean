import PubSub.Proofs.Arrivals

/-! # Which tracked deliveries are on the current connection

A session that loses its connection drops what it tracks, except when the
connection is lost that it tries to reconnect by: a delivery can come on such a
connection before its opening is acknowledged, and then it stays tracked. What
a phase tells of this is kept by the table of the transitions, so that nothing
else that is tracked is on another connection than the current one.
-/

namespace PubSub

/-- In its turn the signal loses a connection that is being opened to reconnect. -/
def LosesOpening (k : ConnectionId) (c : Core) (x : Signal) : Prop :=
  c.phase = .reconnectOpen ∧ c.isCurrent k ∧
    (x.trigger? c = some .openRetryable ∨ x.trigger? c = some .networkError)

def OpeningLost {ℓ : Type} (past : List (Move ℓ)) (k : ConnectionId) : Prop :=
  During past (LosesOpening k)

/-- What is known of the connections that the tracked deliveries came on. -/
inductive Standing where
  /-- Nothing is tracked. -/
  | absent
  | lost
  /-- Every connection is the current one or a lost one. -/
  | kept
  | any
  deriving DecidableEq, Repr

namespace Standing

def Holds (gone : ConnectionId → Prop) (ties : Ties) : Standing → Prop
  | absent => ties.confirmations = []
  | lost => ∀ e ∈ ties.confirmations, gone e.delivery.connection
  | kept => ∀ e ∈ ties.confirmations,
      ties.connection = some e.delivery.connection ∨ gone e.delivery.connection
  | any => True

def le (s s' : Standing) : Bool := s = s' || s' = any || s = absent || s = lost && s' = kept

def detach : Standing → Standing
  | kept => any
  | s => s

def lose : Standing → Standing
  | kept => lost
  | s => s

def spend (p : Phase) (s : Standing) : Trigger → Standing
  | .networkError => if p = .reconnectOpen then s.lose else s
  | .openRetryable => if p = .reconnectOpen then s.lose else s.detach
  | .openFatal | .connectionClosed => s.detach
  | _ => s

def act (s : Standing) : Action → Standing
  | .breakConnection | .cleanup => absent
  | .openConnection | .discardConnection => s.detach
  | _ => s

namespace Holds

variable {s s' : Standing} {gone gone' : ConnectionId → Prop} {ties ties' : Ties} {c : Core}
  {x : Signal}

theorem mono (h : s.Holds gone ties) (hle : s.le s') : s'.Holds gone ties := by
  cases s with
  | absent =>
    have hnil : ties.confirmations = [] := h
    cases s' with
    | absent => exact h
    | lost | kept => simp [Holds, hnil]
    | any => trivial
  | lost =>
    cases s' with
    | absent => cases hle
    | lost => exact h
    | kept => exact fun e he => .inr (h e he)
    | any => trivial
  | kept | any =>
    cases s' with
    | any => trivial
    | _ => first | exact h | cases hle

theorem imp (h : s.Holds gone ties) (hg : ∀ k, gone k → gone' k) : s.Holds gone' ties := by
  cases s with
  | absent => exact h
  | lost => exact fun e he => hg _ (h e he)
  | kept => exact fun e he => (h e he).imp id (hg _)
  | any => trivial

theorem fewer (h : s.Holds gone ties) (hk : ties'.connection = ties.connection)
    (hc : ∀ e ∈ ties'.confirmations, e ∈ ties.confirmations) : s.Holds gone ties' := by
  cases s with
  | absent =>
    refine List.eq_nil_iff_forall_not_mem.mpr fun e he => ?_
    have hmem := hc e he
    rw [show ties.confirmations = [] from h] at hmem
    cases hmem
  | lost => exact fun e he => h e (hc e he)
  | kept => exact fun e he => hk ▸ h e (hc e he)
  | any => trivial

theorem detach (h : s.Holds gone ties) (hc : ties'.confirmations = ties.confirmations) :
    s.detach.Holds gone ties' := by
  cases s with
  | absent => exact hc.trans h
  | lost => exact fun e he => h e (hc ▸ he)
  | kept | any => trivial

theorem lose (h : s.Holds gone ties) (hg : ∀ k, ties.connection = some k → gone k)
    (hc : ties'.confirmations = ties.confirmations) : s.lose.Holds gone ties' := by
  cases s with
  | absent => exact hc.trans h
  | lost => exact fun e he => h e (hc ▸ he)
  | kept => exact fun e he => (h e (hc ▸ he)).elim (hg _) id
  | any => trivial

theorem act (h : s.Holds gone ties) (a : Action) : (s.act a).Holds gone (ties.act a) := by
  cases a with
  | breakConnection | cleanup => exact rfl
  | openConnection | discardConnection => exact h.detach rfl
  | _ => exact h

theorem actAll (h : s.Holds gone ties) (actions : List Action) :
    (actions.foldl Standing.act s).Holds gone (actions.foldl Ties.act ties) := by
  induction actions generalizing s ties with
  | nil => exact h
  | cons a actions ih => exact ih (h.act a)

theorem track (h : Standing.kept.Holds gone ties) {d : PendingDelivery}
    (hd : ties.connection = some d.connection) : Standing.kept.Holds gone (ties.track d) := by
  intro e he
  rcases List.mem_append.mp he with he | he
  · exact h e he
  · obtain rfl := List.mem_singleton.mp he
    exact .inl hd

theorem spend (h : s.Holds gone c.ties) (hg : ∀ k, LosesOpening k c x → gone k)
    {trigger : Trigger} (ht : x.trigger? c = some trigger) :
    (s.spend c.phase trigger).Holds gone (x.prepare c).ties := by
  have hlose (hp : c.phase = .reconnectOpen)
      (hx : trigger = .openRetryable ∨ trigger = .networkError) (k : ConnectionId)
      (hk : c.connection = some k) : gone k :=
    hg k ⟨hp, by simpa [Core.isCurrent] using hk, by simpa [ht] using hx⟩
  have hrecord (c : Core) (cause : ClientError) : (c.recordError cause).ties = c.ties := by
    simp [Core.recordError_eq, Core.ties]
  cases Signal.trigger?_eq_some_iff.mp ht with
  | openRetryable k cause hk =>
    have hc : ((Signal.opened k (.error cause)).prepare c).ties.confirmations =
        c.ties.confirmations := by simp [Signal.prepare, Core.recordError_eq, Core.ties]
    rw [Standing.spend]
    split
    · next hp => exact h.lose (hlose hp (.inl rfl)) hc
    · exact h.detach hc
  | openFatal k cause hk =>
    exact h.detach (by simp [Signal.prepare, Core.recordError_eq, Core.ties])
  | connectionClosed k hk => exact h.detach rfl
  | networkError k cause hk =>
    rw [Signal.prepare, hrecord, Standing.spend]
    split
    · next hp => exact h.lose (hlose hp (.inr rfl)) rfl
    · exact h
  | callbackFailed cause | endpointFatal cause | replaced k cause hk =>
    rw [Signal.prepare, hrecord]
    exact h
  | _ => exact h

end Holds

end Standing

namespace Phase

def standing (p : Phase) : Standing :=
  if p.rowShape = .empty then .absent else if p.isConnected then .kept else .lost

def upholds (p : Phase) (trigger : Trigger) : Bool :=
  (p.marks.spend trigger).isNone ||
    ((((p.transition trigger).map (·.actions)).getD []).foldl Standing.act
      (p.standing.spend p trigger)).le (((p.transition trigger).map (·.next)).getD p).standing

theorem upholds_transition (p : Phase) (trigger : Trigger) : p.upholds trigger := by
  cases p <;> cases trigger <;> rfl

end Phase

theorem Phase.standing_eq_kept {p : Phase} (hc : p.isConnected) (hr : p.rowShape ≠ .empty) :
    p.standing = .kept := by
  rw [standing, if_neg hr, if_pos hc]

namespace Sound

open Turn

variable {lost : ConnectionId → Topic → Prop} {c : Core} {d env : Awaited → Nat} {x : Signal}
  {gone gone' : ConnectionId → Prop}

/-- The tracked deliveries stand as the phase tells after every signal. -/
theorem standing_handle (h : Sound lost c d) (hd : ∀ a, d a = env a + x.awaited.count a)
    (hown : .lookup ∈ x.awaited → env .resume = 0) (hs : c.phase.standing.Holds gone c.ties)
    (hg : ∀ k, gone k → gone' k) (hl : ∀ k, LosesOpening k c x → gone' k) :
    (c.handle x).core.phase.standing.Holds gone' (c.handle x).core.ties := by
  have hs := hs.imp hg
  by_cases hx : x.isSteady
  · have hstays : (begin c).Stays (c.handle x) := stays_handle (begin c) hx
    have hphase : (c.handle x).core.phase = c.phase := congrArg Course.phase hstays.course
    have hconn : (c.handle x).core.connection = c.connection :=
      congrArg Course.connection hstays.course
    rw [hphase]
    rcases h.ties_handle hd hown with ⟨hfades, -⟩ | ⟨k, message, row, -, hk, hrow, hties, -⟩
    · exact hs.fewer hconn hfades.confirmations
    · have hconnected : c.phase.isConnected := (h.control.isCurrent_iff.mp hk).1
      have hrows : c.phase.rowShape ≠ .empty := by
        intro he
        have hadm := h.tracking.shape row (Subscriptions.find?_eq_some hrow).1
        rwa [Phase.marks, he] at hadm
      rw [Phase.standing_eq_kept hconnected hrows] at hs ⊢
      rw [hties]
      exact hs.track (of_decide_eq_true hk)
  · unfold Core.handle
    rw [handle_of_not_isSteady _ (by simpa using hx)]
    cases ht : x.trigger? (begin c).core with
    | none => exact hs
    | some trigger =>
      obtain ⟨m, hm, hc⟩ := h.control.spend hd hown (h.remade_ne_absent hd) ht
      have hm' : ((begin c).update x.prepare).core.phase.marks.spend trigger = some m := by
        simpa using hm
      have htable := Phase.upholds_transition c.phase trigger
      simp only [Phase.upholds, hm, Option.isNone_some, Bool.false_or] at htable
      simp only
      rw [(ties_fire (t := (begin c).update x.prepare) hc hm').1, hc.phase_fire hm', core_update,
        Signal.phase_prepare]
      exact ((hs.spend hl ht).actAll _).mono htable

end Sound

namespace System

variable {ℓ : Type} {s s' : System ℓ} {past : List (Move ℓ)}

/-- Tracked deliveries stand as the phase tells, and no connection comes back. -/
structure Tied (past : List (Move ℓ)) (s : System ℓ) : Prop where
  standing : s.client.core.phase.standing.Holds (OpeningLost past) s.client.core.ties
  lost : ∀ k, OpeningLost past k →
    k.number ≤ s.client.core.connections ∧ s.client.core.connection ≠ some k

namespace Tied

theorem new (id : String) (threshold : Nat) : Tied [] (System.new id threshold : System ℓ) where
  standing := rfl
  lost := fun _ h => h.of_nil.elim

theorem move (h : Tied past s) {m : Move ℓ} (hs : s.step m = some s') (hm : ∀ x, m ≠ .take x) :
    Tied (past ++ [m]) s' := by
  constructor <;> rw [core_step hs hm]
  · exact h.standing.imp fun _ => During.append
  · intro k hk
    exact h.lost k (During.of_append hk hm)

theorem take (hr : Reached past s) (h : Tied past s) {x : Signal}
    (hs : s.step (.take x) = some s') : Tied (past ++ [.take x]) s' := by
  have hcore := hr.core_eq
  have hcontrol := (hr.step hs).coherent.sound.control
  obtain ⟨hd, hown⟩ := hr.coherent.beside_take hs
  have hown (hl : .lookup ∈ x.awaited) : beside s x .resume = 0 := (hown hl).1
  obtain ⟨-, rest, -, rfl⟩ := step_take hs
  have hsound := hr.coherent.sound
  refine ⟨hsound.standing_handle hd hown h.standing (fun _ => During.append)
    fun k hk => During.last (hcore ▸ hk), fun k hk => ?_⟩
  have hties : s.client.core.connections ≤ (s.client.core.handle x).core.connections ∧
      ∀ k, (s.client.core.handle x).core.connection = some k →
        s.client.core.connection = some k ∨ s.client.core.connections < k.number := by
    rcases hsound.ties_handle hd hown with ⟨hfades, -⟩ | ⟨_, _, _, _, -, -, hties, -⟩
    · exact ⟨hfades.connections, hfades.connection⟩
    · have hk : _ = s.client.core.connection := congrArg Ties.connection hties
      have hn : _ = s.client.core.connections := congrArg Ties.connections hties
      exact ⟨hn.ge, fun k hc => .inl (hk ▸ hc)⟩
  rcases During.append_take.mp hk with hk | ⟨hp, hcur, ht⟩
  · obtain ⟨hle, hne⟩ := h.lost k hk
    exact ⟨hle.trans hties.1, fun hc => (hties.2 k hc).elim hne (Nat.not_lt.mpr hle)⟩
  · rw [← hcore] at hp hcur ht
    obtain ⟨-, rfl⟩ := hsound.control.isCurrent_iff.mp hcur
    refine ⟨hties.1, ?_⟩
    -- The client looks for an endpoint then and has no connection.
    have hphase : (s.client.core.handle x).core.phase = .reconnectLookup := by
      rw [hsound.phase_handle hd hown, hp]
      rcases ht with ht | ht <;> rw [ht] <;> rfl
    have hnone := hcontrol.connection
    have hnone : (s.client.core.handle x).core.connection = none := by
      rw [show (s.begin x ⟨rest, true⟩).client.core = (s.client.core.handle x).core from rfl,
        hphase] at hnone
      exact hnone
    simp [begin, hnone]

end Tied

end System

theorem Reached.tied {ℓ : Type} {past : List (Move ℓ)} {s : System ℓ} (h : Reached past s) :
    s.Tied past := by
  exact h.turn_induction (fun id threshold => .new id threshold) (fun _ ih hs hm => ih.move hs hm)
    fun hr ih hs => ih.take hr hs

end PubSub
