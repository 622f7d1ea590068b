import PubSub.Proofs.Control

/-! # Deliveries and what ties them to a connection

A delivery that the application has to confirm is tracked under a new number
while its listener is told of it. In every other turn listeners are told of
deliveries without a number only, and the tracked deliveries and the connection
are kept or forgotten, or there is a new connection.
-/

namespace PubSub

/-- The tracked deliveries and the connection they are tied to. -/
structure Ties where
  connection : Option ConnectionId
  connections : Nat
  tracked : Nat
  confirmations : List TrackedDelivery

def Core.ties (c : Core) : Ties where
  connection := c.connection
  connections := c.connections
  tracked := c.tracked
  confirmations := c.confirmations

namespace Ties

def track (ties : Ties) (d : PendingDelivery) : Ties :=
  { ties with
    tracked := ties.tracked + 1
    confirmations := ties.confirmations ++ [⟨ties.tracked + 1, d⟩] }

def act (ties : Ties) : Action → Ties
  | .openConnection => { ties with
      connection := some ⟨ties.connections + 1⟩, connections := ties.connections + 1 }
  | .discardConnection => { ties with connection := none }
  | .breakConnection => { ties with confirmations := [] }
  | .cleanup => { ties with connection := none, confirmations := [] }
  | _ => ties

/-- Nothing more is tracked, and there is no other connection than the present one and newer
ones. -/
structure Fades (ties ties' : Ties) : Prop where
  tracked : ties'.tracked = ties.tracked
  confirmations : ∀ d ∈ ties'.confirmations, d ∈ ties.confirmations
  connections : ties.connections ≤ ties'.connections
  connection : ∀ k, ties'.connection = some k →
    ties.connection = some k ∨ ties.connections < k.number

namespace Fades

variable {ties ties' ties'' : Ties}

theorem refl (ties : Ties) : ties.Fades ties where
  tracked := rfl
  confirmations := fun _ h => h
  connections := Nat.le_refl _
  connection := fun _ h => .inl h

theorem of_eq (h : ties' = ties) : ties.Fades ties' := h ▸ refl ties'

theorem trans (h : ties.Fades ties') (h' : ties'.Fades ties'') : ties.Fades ties'' where
  tracked := h'.tracked.trans h.tracked
  confirmations := fun d hd => h.confirmations d (h'.confirmations d hd)
  connections := Nat.le_trans h.connections h'.connections
  connection := by
    intro k hk
    rcases h'.connection k hk with hk | hlt
    · exact h.connection k hk
    · exact .inr (Nat.lt_of_le_of_lt h.connections hlt)

theorem act (ties : Ties) (a : Action) : ties.Fades (ties.act a) := by
  cases a with
  | openConnection =>
    refine ⟨rfl, fun _ h => h, Nat.le_succ _, fun k hk => .inr ?_⟩
    obtain rfl := Option.some.inj hk
    exact Nat.lt_succ_self _
  | discardConnection => exact ⟨rfl, fun _ h => h, Nat.le_refl _, by simp [Ties.act]⟩
  | breakConnection => exact ⟨rfl, by simp [Ties.act], Nat.le_refl _, fun _ h => .inl h⟩
  | cleanup => exact ⟨rfl, by simp [Ties.act], Nat.le_refl _, by simp [Ties.act]⟩
  | _ => exact refl ties

theorem actAll (ties : Ties) (actions : List Action) :
    ties.Fades (actions.foldl Ties.act ties) := by
  induction actions generalizing ties with
  | nil => exact refl ties
  | cons a actions ih => exact (act ties a).trans (ih _)

end Fades

end Ties

def Effect.number? (e : Effect) : Option ConfirmationId := e.delivery?.bind (·.confirmation)

/-- The ties; no listener is handed a delivery with a number while they stay. -/
def tiesView : View Ties := ⟨Core.ties, fun e => e.number?.isNone⟩

def numberView : View Unit := ⟨fun _ => (), fun e => e.number?.isNone⟩

theorem Effect.number?_of_isRoutine {e : Effect} (he : e.isRoutine) : e.number?.isNone := by
  unfold isRoutine at he
  split at he <;> first | rfl | cases he

theorem Effect.number?_of_isEnding {e : Effect} (he : e.isEnding) : e.number?.isNone := by
  unfold isEnding at he
  split at he <;> first | rfl | cases he

theorem apart_tiesView : tiesView.Apart where
  part := fun _ _ _ _ _ _ => rfl
  allows := fun _ => Effect.number?_of_isRoutine

theorem apart_numberView : numberView.Apart where
  part := fun _ _ _ _ _ _ => rfl
  allows := fun _ => Effect.number?_of_isRoutine

namespace Turn

variable {m m' : Marks} {due env : Awaited → Nat} {t t' : Turn}

abbrev Unnumbered (t t' : Turn) : Prop := Frame numberView t t'

theorem Frame.unnumbered (h : Frame tiesView t t') : t.Unnumbered t' := ⟨rfl, h.effects⟩

theorem unnumbered_cleanup (t : Turn) : t.Unnumbered t.cleanup := by
  obtain ⟨es, he, hs⟩ := ending_cleanup t
  exact ⟨rfl, es, he, fun e hm => Effect.number?_of_isEnding (hs e hm)⟩

theorem unnumbered_perform (hc : Control m t.core.course due) {a : Action}
    (ha : m.act a = some m') (closed : Turn → Turn) : t.Unnumbered (t.perform closed a) := by
  have hrefl := Frame.refl numberView t
  cases a with
  | openConnection =>
    simp only [perform, connect]
    split
    · exact hrefl.emit rfl
    · exact (hrefl.update rfl).emit rfl
  | closeConnection =>
    rw [hc.perform_closeConnection ha]
    exact hrefl.emit rfl
  | breakConnection =>
    exact (((hrefl.update rfl).trans
      (Frame.foldl (frame_abandonSend · apart_numberView _) ..)).update rfl).emit rfl
  | cleanup => exact unnumbered_cleanup t
  | remakeSubscriptions => exact frame_remake t apart_numberView
  | replayPendingWork => exact frame_replayPending t apart_numberView
  | succeedPendingStarts | failPendingStarts | succeedPendingStops =>
    exact (hrefl.update rfl).trans (frame_settleAll _ apart_numberView ..)
  | startRetryTimer =>
    simp only [perform, startTimer, cancelTimer]
    split
    · exact (hrefl.update rfl).emit rfl
    · exact ((hrefl.emit rfl).update rfl).emit rfl
  | cancelRetryTimer =>
    simp only [perform, cancelTimer]
    split
    · exact hrefl
    · exact hrefl.emit rfl
  | markEndpointGood =>
    simp only [perform, reportEndpoint]
    split
    · exact hrefl.update rfl
    · exact (hrefl.update rfl).emit rfl
  | resumeStart =>
    simp only [perform, resumeStart]
    split
    · exact hrefl
    · exact hrefl.emit rfl
  | notifyRetrying | notifyStopped => exact (hrefl.update rfl).emit rfl
  | discardConnection | resetSession => exact ⟨rfl, [], by simp [perform], by simp⟩
  | _ => exact hrefl.emit rfl

theorem ties_perform (hc : Control m t.core.course due) {a : Action} (ha : m.act a = some m')
    (closed : Turn → Turn) : (t.perform closed a).core.ties = t.core.ties.act a := by
  cases a with
  | openConnection =>
    obtain ⟨e, -, hcore, -⟩ := hc.perform_openConnection ha closed
    rw [hcore]
    rfl
  | closeConnection =>
    rw [hc.perform_closeConnection ha]
    rfl
  | remakeSubscriptions => exact (frame_remake t apart_tiesView).part
  | replayPendingWork => exact (frame_replayPending t apart_tiesView).part
  | breakConnection => simp [perform, core_breakConnection, Core.ties, Ties.act]
  | cleanup => simp [perform, core_cleanup, Core.ties, Ties.act]
  | _ => simp [perform, Core.ties, Ties.act]

theorem ties_performAll (hc : Control m t.core.course (t.due env)) {actions : List Action}
    (ha : actions.foldlM Marks.act m = some m') (closed : Turn → Turn) :
    (actions.foldl (perform closed) t).core.ties = actions.foldl Ties.act t.core.ties ∧
      t.Unnumbered (actions.foldl (perform closed) t) := by
  induction actions generalizing m t with
  | nil => exact ⟨rfl, .refl _ t⟩
  | cons a actions ih =>
    obtain ⟨m₁, ha₁, ha⟩ := Option.bind_eq_some_iff.mp ha
    obtain ⟨hties, hfree⟩ := ih (hc.perform ha₁ closed) ha
    refine ⟨?_, (unnumbered_perform hc ha₁ closed).trans hfree⟩
    rw [List.foldl_cons, hties, ties_perform hc ha₁ closed]
    rfl

theorem ties_fire (hc : Control m t.core.course (t.due env)) {trigger : Trigger}
    (hm : t.core.phase.marks.spend trigger = some m) :
    (t.fire trigger).core.ties =
        (((t.core.phase.transition trigger).map (·.actions)).getD []).foldl Ties.act t.core.ties ∧
      t.Unnumbered (t.fire trigger) := by
  rcases fire_cases t hm with ⟨he, hn, -⟩ | ⟨next, actions, m', hn, ha, -, he⟩
  · rw [he, hn]
    exact ⟨rfl, .refl _ t⟩
  · obtain ⟨hties, hfree⟩ := ties_performAll (hc.enter next) ha fireClosed
    rw [he, hn]
    exact ⟨hties, (((Frame.refl numberView t).update rfl).emit rfl).trans hfree⟩

/-- A message is handed on without a number, or its delivery is tracked under a new one. -/
theorem onDelivered_cases (t : Turn) (k : ConnectionId) (message : InboundMessage) :
    Frame tiesView t (t.onDelivered k message) ∨
      t.core.isCurrent k ∧ ∃ row, t.core.subscriptions.find? message.subscription = some row ∧
        (t.onDelivered k message).core.ties = t.core.ties.track ⟨k, message.tag⟩ ∧
        (t.onDelivered k message).effects = t.effects ++ [.notify (.delivery row.listener
          (.ofInbound message (some (t.core.tracked + 1))) none)] := by
  unfold onDelivered
  split
  · next hk =>
    split
    · exact .inl (.refl _ t)
    · next row hrow =>
      dsimp only
      split_ifs
      · exact .inl ((Frame.refl tiesView t).emit rfl)
      · exact .inl ((Frame.refl tiesView t).emit rfl)
      · exact .inr ⟨hk, row, hrow, rfl, effects_emit ..⟩
  · exact .inl (.refl _ t)

theorem fades_onConfirm (t : Turn) (id : ConfirmationId) (p : PromiseId) :
    t.core.ties.Fades (t.onConfirm id p).core.ties ∧ t.Unnumbered (t.onConfirm id p) := by
  unfold onConfirm
  split
  · exact ⟨.refl _, (Frame.refl numberView t).emit rfl⟩
  · next d hd =>
    have hack := frame_acknowledge (v := tiesView)
      (t.update fun c => { c with confirmations := c.confirmations.filter (·.id ≠ id) })
      (d := d.delivery) rfl
    have hfilter : t.core.ties.Fades { t.core.ties with
        confirmations := t.core.confirmations.filter (·.id ≠ id) } :=
      ⟨rfl, fun d hd => List.mem_of_mem_filter hd, Nat.le_refl _, fun _ h => .inl h⟩
    exact ⟨hfilter.trans (.of_eq hack.part),
      (((Frame.refl numberView t).update rfl).trans hack.unnumbered).emit rfl⟩

end Turn

theorem Signal.ties_prepare (x : Signal) (c : Core) : (x.prepare c).ties = c.ties ∨
    (x.prepare c).ties = { c.ties with connection := none } := by
  cases x with
  | endpointAnswered result =>
    rcases result with e | (e | delay) <;>
      simp [prepare, Core.recordError_eq, Core.ties]
  | opened k result => cases result <;> simp [prepare, Core.recordError_eq, Core.ties]
  | _ => simp [prepare, Core.recordError_eq, Core.ties]

theorem Signal.fades_prepare (x : Signal) (c : Core) : c.ties.Fades (x.prepare c).ties := by
  rcases x.ties_prepare c with h | h
  · exact .of_eq h
  · rw [h]
    exact .act c.ties .discardConnection

end PubSub
