import Mathlib.Tactic.SplitIfs
import PubSub.Proofs.Turn

/-! # What work leaves alone

Doing work and tracking its answers changes what the session tracks and
nothing else. A view is a part of the core with the effects that may come while
it stays as it is; whatever the view shows apart from what the session tracks
is the same after every such operation.
-/

namespace PubSub

/-- A part of the core, and the effects that may come while it stays as it is. -/
structure View (α : Type) where
  part : Core → α
  allows : Effect → Bool

def Effect.isRoutine : Effect → Bool
  | settle .. | finishSend .. => true
  | request (.send ..) | request (.subscribe ..) | request (.unsubscribe ..) => true
  | notify (.unsubscribed ..) => true
  | post .subscriptionsRemade => true
  | _ => false

/-- The view does not show what work changes. -/
structure View.Apart {α : Type} (v : View α) : Prop where
  part : ∀ (c : Core) work sends outstanding rows remakes, v.part { c with
    pendingWork := work
    sends := sends
    outstanding := outstanding
    subscriptions := rows
    remakesOutstanding := remakes } = v.part c
  allows : ∀ e, e.isRoutine → v.allows e

namespace Turn

variable {α : Type} {v : View α} {t t' t'' : Turn}

structure Frame (v : View α) (t t' : Turn) : Prop where
  part : v.part t'.core = v.part t.core
  effects : ∃ es, t'.effects = t.effects ++ es ∧ ∀ e ∈ es, v.allows e

namespace Frame

theorem refl (v : View α) (t : Turn) : Frame v t t := ⟨rfl, [], by simp, by simp⟩

theorem trans (h : Frame v t t') (h' : Frame v t' t'') : Frame v t t'' := by
  obtain ⟨es, he, hs⟩ := h.effects
  obtain ⟨es', he', hs'⟩ := h'.effects
  refine ⟨h'.part.trans h.part, es ++ es', by simp [he', he], ?_⟩
  intro e hm
  exact (List.mem_append.mp hm).elim (hs e) (hs' e)

theorem emit (h : Frame v t t') {e : Effect} (he : v.allows e) : Frame v t (t'.emit e) :=
  h.trans ⟨rfl, [e], effects_emit .., by simpa using he⟩

theorem update (h : Frame v t t') {f : Core → Core} (hf : v.part (f t'.core) = v.part t'.core) :
    Frame v t (t'.update f) :=
  h.trans ⟨hf, [], by simp, by simp⟩

theorem foldl {β : Type} {f : Turn → β → Turn} (hf : ∀ u x, Frame v u (f u x)) (xs : List β)
    (t : Turn) : Frame v t (xs.foldl f t) := by
  induction xs generalizing t with
  | nil => exact .refl v t
  | cons x xs ih => exact (hf t x).trans (ih (f t x))

end Frame

section Work

variable (hv : v.Apart) (t)
include hv

theorem frame_settleAll (ps : List PromiseId) (result : Outcome) :
    Frame v t (t.settleAll ps result) :=
  Frame.foldl (f := settle result)
    (fun u p => (Frame.refl v u).emit (e := .settle p result) (hv.allows _ rfl)) ps t

theorem frame_putRow (row : Subscription) : Frame v t (t.putRow row) :=
  (Frame.refl v t).update (hv.part ..)

theorem frame_eraseRow (topic : Topic) : Frame v t (t.eraseRow topic) :=
  (Frame.refl v t).update (hv.part ..)

theorem frame_reject (w : Work) (cause : ClientError) : Frame v t (t.reject w cause) := by
  cases w <;> exact (Frame.refl v t).emit (hv.allows _ rfl)

theorem frame_execute (w : Work) : Frame v t (t.execute w) := by
  unfold execute
  split
  · exact (Frame.refl v t).update (hv.part ..)
  · split
    · exact ((Frame.refl v t).update (hv.part ..)).emit (hv.allows _ rfl)
    · unfold executeSubscribe
      split
      · exact (frame_putRow t hv _).emit (hv.allows _ rfl)
      · split
        · exact (Frame.refl v t).emit (hv.allows _ rfl)
        · exact frame_putRow t hv _
    · unfold executeUnsubscribe
      split
      · exact (Frame.refl v t).emit (hv.allows _ rfl)
      · split
        · exact (frame_putRow t hv _).emit (hv.allows _ rfl)
        · exact frame_putRow t hv _

theorem frame_onWork (w : Work) : Frame v t (t.onWork w) := by
  unfold onWork
  split
  · exact frame_reject t hv w _
  · exact (Frame.refl v t).update (hv.part ..)
  · exact frame_execute t hv w

theorem frame_replay (ws : List Work) : Frame v t (t.replay ws) :=
  Frame.foldl (frame_onWork · hv) ws t

theorem frame_replayPending : Frame v t t.replayPending :=
  ((Frame.refl v t).update (hv.part ..)).trans (frame_replay _ hv _)

end Work

section Answers

variable (hv : v.Apart) (t)
include hv

theorem frame_remakeSettled : Frame v t t.remakeSettled := by
  unfold remakeSettled
  dsimp only
  split
  · exact ((Frame.refl v t).update (hv.part ..)).emit (hv.allows _ rfl)
  · exact (Frame.refl v t).update (hv.part ..)

theorem frame_onSubscribedStopping (row : Subscription) :
    Frame v t (t.onSubscribedStopping row) := by
  unfold onSubscribedStopping
  split
  · exact (frame_putRow t hv _).trans (frame_remakeSettled _ hv)
  · exact .refl v t

theorem frame_onRemade (row : Subscription) (result : Outcome) :
    Frame v t (t.onRemade row result) := by
  cases result with
  | ok =>
    exact ((frame_putRow t hv _).trans (frame_settleAll _ hv ..)).trans (frame_remakeSettled _ hv)
  | error e =>
    exact (((frame_eraseRow t hv _).trans (frame_settleAll _ hv ..)).emit (hv.allows _ rfl)).trans
      (frame_remakeSettled _ hv)

theorem frame_onAttached (row : Subscription) (result : Outcome) :
    Frame v t (t.onAttached row result) := by
  cases result with
  | ok => exact ((frame_putRow t hv _).trans (frame_settleAll _ hv ..)).trans (frame_replay _ hv _)
  | error e =>
    exact ((frame_eraseRow t hv _).trans (frame_settleAll _ hv ..)).trans (frame_replay _ hv _)

theorem frame_onSubscribed (k : ConnectionId) (topic : Topic) (result : Outcome) :
    Frame v t (t.onSubscribed k topic result) := by
  unfold onSubscribed
  split
  · split
    · exact .refl v t
    · split_ifs
      · exact .refl v t
      · exact frame_onSubscribedStopping t hv _
      · exact frame_onRemade t hv ..
      · exact frame_onAttached t hv ..
  · exact .refl v t

theorem frame_onDetached (row : Subscription) (result : Outcome) :
    Frame v t (t.onDetached row result) := by
  cases result with
  | ok =>
    exact (((frame_eraseRow t hv _).trans (frame_settleAll _ hv ..)).emit (hv.allows _ rfl)).trans
      (frame_replay _ hv _)
  | error e =>
    exact ((frame_putRow t hv _).trans (frame_settleAll _ hv ..)).trans (frame_replay _ hv _)

theorem frame_onUnsubscribed (k : ConnectionId) (topic : Topic) (result : Outcome) :
    Frame v t (t.onUnsubscribed k topic result) := by
  unfold onUnsubscribed
  split
  · split
    · exact .refl v t
    · split
      · exact .refl v t
      · exact frame_onDetached t hv ..
  · exact .refl v t

theorem frame_onSent (k : ConnectionId) (id : Nat) (result : Outcome) :
    Frame v t (t.onSent k id result) := by
  unfold onSent
  split
  · exact .refl v t
  · split_ifs
    · exact .refl v t
    · exact .refl v t
    · exact ((Frame.refl v t).update (hv.part ..)).emit (hv.allows _ rfl)

theorem frame_abandonSend (result : Outcome) (send : OutstandingSend) :
    Frame v t (t.abandonSend result send) :=
  (Frame.refl v t).emit (hv.allows _ rfl)

theorem frame_subscribeAgain (k : ConnectionId) (params : SubscribeParams) :
    Frame v t (t.subscribeAgain k params) :=
  (Frame.refl v t).emit (hv.allows _ rfl)

theorem frame_remake : Frame v t t.remake := by
  unfold remake
  split
  · exact (Frame.refl v t).emit (hv.allows _ rfl)
  · dsimp only
    split_ifs
    · exact ((Frame.refl v t).update (hv.part ..)).emit (hv.allows _ rfl)
    · exact ((Frame.refl v t).update (hv.part ..)).trans
        (Frame.foldl (frame_subscribeAgain · hv _) ..)

end Answers

theorem frame_acknowledge (t : Turn) {d : PendingDelivery}
    (hv : v.allows (.request (.confirm d.connection d.tag))) : Frame v t (t.acknowledge d) := by
  unfold acknowledge
  split
  · exact (Frame.refl v t).emit hv
  · exact .refl v t

end Turn

end PubSub
