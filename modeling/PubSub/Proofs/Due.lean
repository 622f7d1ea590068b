import PubSub.Proofs.Frame
import PubSub.Proofs.Run

/-! # What turns ask for

Most operations of a turn are silent: they settle, tell and cancel, but ask for
nothing that ends with a signal and post no signal either. Here it is said of
the others what is under way after them.
-/

namespace PubSub

/-- The effect asks for nothing that ends with a signal. -/
def Effect.isSilent : Effect → Bool
  | settle .. | finishSend .. | takeDrain | notify _ | release | publish _ => true
  | request (.report _) | request (.confirm ..) | request (.cancel _) => true
  | request _ | flush | post _ => false

def silentView : View Unit := ⟨fun _ => (), Effect.isSilent⟩

theorem Effect.isSilent_of_isEnding {e : Effect} (h : e.isEnding) : e.isSilent := by
  unfold isEnding at h
  split at h <;> first | rfl | cases h

theorem Effect.awaited_of_isSilent {e : Effect} (h : e.isSilent) : e.awaited = [] := by
  unfold isSilent at h
  split at h <;> first | rfl | cases h

theorem Effect.posted_of_isSilent {e : Effect} (h : e.isSilent) : e.posted = [] := by
  unfold isSilent at h
  split at h <;> first | rfl | cases h

namespace Turn

variable {t t' t'' : Turn} (env : Awaited → Nat) (a : Awaited)

/-- How often something is under way in the course of a turn, beyond which `env` is. -/
def due (env : Awaited → Nat) (t : Turn) (a : Awaited) : Nat :=
  env a + (t.effects.flatMap Effect.awaited).count a

def posted (t : Turn) : List Signal := t.effects.flatMap Effect.posted

@[simp]
theorem due_begin (c : Core) : (begin c).due env a = env a := rfl

@[simp]
theorem due_update (t : Turn) (f : Core → Core) : (t.update f).due env a = t.due env a := rfl

theorem due_of_effects {es : List Effect} (h : t'.effects = t.effects ++ es) :
    t'.due env a = t.due env a + (es.flatMap Effect.awaited).count a := by
  simp only [due, h, List.flatMap_append, List.count_append, Nat.add_assoc]

@[simp]
theorem due_emit (t : Turn) (e : Effect) :
    (t.emit e).due env a = t.due env a + e.awaited.count a := by
  rw [due_of_effects env a (effects_emit t e), List.flatMap_singleton]

theorem posted_of_effects {es : List Effect} (h : t'.effects = t.effects ++ es) :
    t'.posted = t.posted ++ es.flatMap Effect.posted := by
  simp only [posted, h, List.flatMap_append]

abbrev Silent (t t' : Turn) : Prop := Frame silentView t t'

namespace Silent

theorem refl (t : Turn) : t.Silent t := Frame.refl silentView t

theorem due (h : t.Silent t') : t'.due env a = t.due env a := by
  obtain ⟨es, he, hs⟩ := h.effects
  rw [due_of_effects env a he,
    List.flatMap_eq_nil_iff.mpr fun e hm => Effect.awaited_of_isSilent (hs e hm), List.count_nil,
    Nat.add_zero]

theorem posted (h : t.Silent t') : t'.posted = t.posted := by
  obtain ⟨es, he, hs⟩ := h.effects
  rw [posted_of_effects he,
    List.flatMap_eq_nil_iff.mpr fun e hm => Effect.posted_of_isSilent (hs e hm), List.append_nil]

end Silent

variable (t)

theorem silent_settle (result : Outcome) (p : PromiseId) : t.Silent (t.settle result p) :=
  (Silent.refl t).emit rfl

theorem silent_settleAll (ps : List PromiseId) (result : Outcome) :
    t.Silent (t.settleAll ps result) :=
  Frame.foldl (silent_settle · result) ps t

theorem silent_reject (w : Work) (cause : ClientError) : t.Silent (t.reject w cause) := by
  cases w <;> exact (Silent.refl t).emit rfl

theorem silent_abandonSend (result : Outcome) (send : OutstandingSend) :
    t.Silent (t.abandonSend result send) :=
  (Silent.refl t).emit rfl

theorem silent_breakConnection : t.Silent t.breakConnection :=
  ((((Silent.refl t).update rfl).trans
    (Frame.foldl (silent_abandonSend · _) ..)).update rfl).emit rfl

theorem silent_cleanup : t.Silent t.cleanup := by
  obtain ⟨es, he, hs⟩ := ending_cleanup t
  exact ⟨rfl, es, he, fun e hm => Effect.isSilent_of_isEnding (hs e hm)⟩

theorem silent_settleStarts (result : Outcome) : t.Silent (t.settleStarts result) :=
  ((Silent.refl t).update rfl).trans (silent_settleAll ..)

theorem silent_settleStops : t.Silent t.settleStops :=
  ((Silent.refl t).update rfl).trans (silent_settleAll ..)

theorem silent_cancelTimer : t.Silent t.cancelTimer := by
  unfold cancelTimer
  split
  · exact .refl t
  · exact (Silent.refl t).emit rfl

theorem silent_reportEndpoint : t.Silent t.reportEndpoint := by
  unfold reportEndpoint
  dsimp only
  split
  · exact (Silent.refl t).update rfl
  · exact ((Silent.refl t).update rfl).emit rfl

theorem silent_notifyCause (n : Option ClientError → Notification) :
    t.Silent (t.notifyCause n) :=
  ((Silent.refl t).update rfl).emit rfl

@[simp]
theorem due_notify (n : Notification) : (t.notify n).due env a = t.due env a := due_emit ..

@[simp]
theorem due_settleAll (ps : List PromiseId) (result : Outcome) :
    (t.settleAll ps result).due env a = t.due env a := (silent_settleAll t ps result).due env a

@[simp]
theorem due_remakeSettled : t.remakeSettled.due env a = t.due env a +
    if t.core.remakesOutstanding - 1 = 0 then [Awaited.remade].count a else 0 := by
  rw [due_of_effects env a (effects_remakeSettled t)]
  split <;> simp [Effect.awaited, Signal.awaited]

@[simp]
theorem due_startTimer : t.startTimer.due env a =
    t.due env a + [Awaited.reply (.timerEnded (t.core.timers + 1))].count a := by
  rw [startTimer, request, due_emit, due_update, (silent_cancelTimer t).due]
  simp [Effect.awaited, Request.reply?]

@[simp]
theorem due_resumeStart : t.resumeStart.due env a =
    t.due env a + if t.core.pendingStarts = [] then 0 else [Awaited.resume].count a := by
  rw [due_of_effects env a (effects_resumeStart t)]
  split <;> simp [Effect.awaited, Signal.awaited]

def enter (t : Turn) (next : Phase) : Turn :=
  (t.update fun c => { c with phase := next }).emit (.publish next.view)

@[simp]
theorem core_enter (next : Phase) : (t.enter next).core = { t.core with phase := next } := rfl

@[simp]
theorem effects_enter (next : Phase) :
    (t.enter next).effects = t.effects ++ [.publish next.view] := effects_emit ..

theorem silent_enter (next : Phase) : t.Silent (t.enter next) :=
  ((Silent.refl t).update rfl).emit rfl

end Turn

end PubSub
