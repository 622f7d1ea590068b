import PubSub.Core.Handle

/-! # What turns do

Every operation of a turn changes the core and appends effects. Here it is said
of each operation what becomes of the core and which effects it appends, apart
from those that do work again.
-/

namespace PubSub

namespace Core

theorem recordError_eq (cause : ClientError) (c : Core) :
    c.recordError cause = { c with
      lastError := if c.stoppedByUser || c.lastError.isSome then c.lastError else some cause } := by
  unfold recordError
  split <;> rfl

end Core

def Subscription.ending (row : Subscription) : List Effect :=
  row.promises.map (.settle · (.error .clientStopped)) ++
    if row.establishedOnce then [.notify (.unsubscribed row.listener row.topic none)] else []

def OutstandingSend.ending (atLeastOnce : Outcome) (send : OutstandingSend) : Effect :=
  .finishSend send.request.promise
    (if send.request.message.qos = .atMostOnce then .ok () else atLeastOnce)

def Work.refusal (cause : ClientError) : Work → Effect
  | send r => .finishSend r.promise (.error cause)
  | subscribe r => .settle r.promise (.error cause)
  | unsubscribe r => .settle r.promise (.error cause)

/-- The effect is one of those by which a session ends. -/
def Effect.isEnding : Effect → Bool
  | settle .. | finishSend .. | takeDrain | notify (.unsubscribed ..) | request (.cancel _) => true
  | _ => false

namespace Turn

variable (t : Turn)

@[simp]
theorem core_request (r : Request) : (t.request r).core = t.core := rfl

@[simp]
theorem effects_request (r : Request) : (t.request r).effects = t.effects ++ [.request r] :=
  effects_emit ..

@[simp]
theorem core_notify (n : Notification) : (t.notify n).core = t.core := rfl

@[simp]
theorem effects_notify (n : Notification) : (t.notify n).effects = t.effects ++ [.notify n] :=
  effects_emit ..

@[simp]
theorem core_post (s : Signal) : (t.post s).core = t.core := rfl

@[simp]
theorem effects_post (s : Signal) : (t.post s).effects = t.effects ++ [.post s] :=
  effects_emit ..

@[simp]
theorem core_settle (result : Outcome) (p : PromiseId) : (t.settle result p).core = t.core := rfl

@[simp]
theorem effects_settle (result : Outcome) (p : PromiseId) :
    (t.settle result p).effects = t.effects ++ [.settle p result] :=
  effects_emit ..

@[simp]
theorem core_finishSend (p : PromiseId) (result : Outcome) :
    (t.finishSend p result).core = t.core := rfl

@[simp]
theorem effects_finishSend (p : PromiseId) (result : Outcome) :
    (t.finishSend p result).effects = t.effects ++ [.finishSend p result] :=
  effects_emit ..

@[simp]
theorem core_putRow (row : Subscription) :
    (t.putRow row).core = { t.core with subscriptions := t.core.subscriptions.put row } := rfl

@[simp]
theorem effects_putRow (row : Subscription) : (t.putRow row).effects = t.effects := rfl

@[simp]
theorem core_eraseRow (topic : Topic) :
    (t.eraseRow topic).core = { t.core with subscriptions := t.core.subscriptions.erase topic } :=
  rfl

@[simp]
theorem effects_eraseRow (topic : Topic) : (t.eraseRow topic).effects = t.effects := rfl

theorem foldl_appends {α : Type} {f : Turn → α → Turn} {g : α → List Effect}
    (hc : ∀ t x, (f t x).core = t.core) (he : ∀ t x, (f t x).effects = t.effects ++ g x)
    (xs : List α) (t : Turn) :
    (xs.foldl f t).core = t.core ∧ (xs.foldl f t).effects = t.effects ++ xs.flatMap g := by
  induction xs generalizing t with
  | nil => simp
  | cons x xs ih =>
    obtain ⟨hc', he'⟩ := ih (f t x)
    rw [List.foldl_cons, hc', he', hc, he, List.flatMap_cons, List.append_assoc]
    exact ⟨rfl, rfl⟩

theorem settleAll_eq (ps : List PromiseId) (result : Outcome) :
    (t.settleAll ps result).core = t.core ∧
      (t.settleAll ps result).effects = t.effects ++ ps.flatMap fun p => [.settle p result] :=
  foldl_appends (f := settle result) (fun _ _ => rfl) (fun t p => effects_settle t result p) ps t

@[simp]
theorem core_settleAll (ps : List PromiseId) (result : Outcome) :
    (t.settleAll ps result).core = t.core := (t.settleAll_eq ps result).1

@[simp]
theorem effects_settleAll (ps : List PromiseId) (result : Outcome) :
    (t.settleAll ps result).effects = t.effects ++ ps.map (.settle · result) := by
  rw [(t.settleAll_eq ps result).2, List.map_eq_flatMap]

section Work

@[simp]
theorem core_reject (w : Work) (cause : ClientError) : (t.reject w cause).core = t.core := by
  cases w <;> rfl

@[simp]
theorem effects_reject (w : Work) (cause : ClientError) :
    (t.reject w cause).effects = t.effects ++ [w.refusal cause] := by
  cases w <;> simp [reject, Work.refusal, Work.promise]

@[simp]
theorem core_keep (w : Work) :
    (t.keep w).core = { t.core with pendingWork := t.core.pendingWork ++ [w] } := rfl

@[simp]
theorem effects_keep (w : Work) : (t.keep w).effects = t.effects := rfl

@[simp]
theorem core_executeSend (k : ConnectionId) (r : SendRequest) :
    (t.executeSend k r).core = { t.core with
      sends := t.core.sends + 1
      outstanding := t.core.outstanding ++ [⟨t.core.sends + 1, k, r⟩] } := rfl

@[simp]
theorem effects_executeSend (k : ConnectionId) (r : SendRequest) :
    (t.executeSend k r).effects =
      t.effects ++ [.request (.send k (t.core.sends + 1) r.message)] := by
  simp [executeSend]

end Work

@[simp]
theorem core_remakeSettled : t.remakeSettled.core =
    { t.core with remakesOutstanding := t.core.remakesOutstanding - 1 } := by
  simp only [remakeSettled]; split <;> rfl

@[simp]
theorem effects_remakeSettled : t.remakeSettled.effects = t.effects ++
    if t.core.remakesOutstanding - 1 = 0 then [.post .subscriptionsRemade] else [] := by
  by_cases h : t.core.remakesOutstanding - 1 = 0
  · have hu : t.remakeSettled = (t.update fun c =>
        { c with remakesOutstanding := c.remakesOutstanding - 1 }).post .subscriptionsRemade :=
      if_pos h
    simp [hu, h]
  · have hu : t.remakeSettled = t.update fun c =>
        { c with remakesOutstanding := c.remakesOutstanding - 1 } := if_neg h
    simp [hu, h]

section Actions

theorem connect_of_endpoint {e : Endpoint} (h : t.core.endpoint = some e) :
    t.connect.core = { t.core with
        connections := t.core.connections + 1
        connection := some ⟨t.core.connections + 1⟩ } ∧
      t.connect.effects = t.effects ++ [.request (.connect ⟨t.core.connections + 1⟩ e)] := by
  simp [connect, h]

@[simp]
theorem core_cancelTimer : t.cancelTimer.core = t.core := by
  unfold cancelTimer; split <;> rfl

@[simp]
theorem effects_cancelTimer :
    t.cancelTimer.effects = t.effects ++ t.core.timer.toList.map (.request <| .cancel ·) := by
  unfold cancelTimer; split <;> simp_all

@[simp]
theorem core_startTimer : t.startTimer.core = { t.core with
    timers := t.core.timers + 1, timer := some (t.core.timers + 1) } := by
  simp [startTimer]

@[simp]
theorem effects_startTimer : t.startTimer.effects =
    t.effects ++ t.core.timer.toList.map (.request <| .cancel ·) ++
      [.request (.schedule (t.core.timers + 1) t.core.retryDelay)] := by
  simp [startTimer]

@[simp]
theorem core_reportEndpoint : t.reportEndpoint.core = { t.core with retryDelay := .zero } := by
  simp only [reportEndpoint]; split <;> rfl

@[simp]
theorem effects_reportEndpoint :
    t.reportEndpoint.effects = t.effects ++ t.core.endpoint.toList.map (.request <| .report ·) := by
  simp only [reportEndpoint]; split <;> simp_all

theorem remake_of_connection {k : ConnectionId} (h : t.core.connection = some k) :
    t.remake.core = { t.core with
        subscriptions := t.core.subscriptions.remake
        remakesOutstanding := t.core.subscriptions.remakeParams.length } ∧
      t.remake.effects = t.effects ++
        if t.core.subscriptions.remakeParams = [] then [.post .subscriptionsRemade]
        else t.core.subscriptions.remakeParams.map (.request <| .subscribe k ·) := by
  have hs (params : List SubscribeParams) (u : Turn) :
      (params.foldl (subscribeAgain k) u).core = u.core ∧
        (params.foldl (subscribeAgain k) u).effects =
          u.effects ++ params.flatMap fun p => [.request (.subscribe k p)] :=
    foldl_appends (f := subscribeAgain k) (fun _ _ => rfl)
      (fun u p => effects_request u (.subscribe k p)) params u
  simp only [remake, h, List.isEmpty_iff]
  split
  · simp_all
  · rw [(hs _ _).1, (hs _ _).2, ← List.map_eq_flatMap]
    exact ⟨by simp [h], rfl⟩

theorem abandonSends_eq (result : Outcome) (sends : List OutstandingSend) :
    (sends.foldl (abandonSend result) t).core = t.core ∧
      (sends.foldl (abandonSend result) t).effects =
        t.effects ++ sends.map (·.ending result) := by
  rw [List.map_eq_flatMap]
  exact foldl_appends (f := abandonSend result) (fun _ _ => rfl)
    (fun t send => effects_finishSend t send.request.promise _) sends t

theorem core_breakConnection : t.breakConnection.core = { t.core with
    outstanding := []
    pendingWork := (t.core.outstanding.filter fun send =>
        !decide (send.request.message.qos = .atMostOnce)).map (Work.send ·.request) ++
      t.core.subscriptions.recovered ++ t.core.pendingWork
    subscriptions := t.core.subscriptions.interrupt
    remakesOutstanding := 0
    confirmations := [] } := by
  simp [breakConnection, (abandonSends_eq _ _ _).1]

theorem effects_breakConnection : t.breakConnection.effects = t.effects ++
    (t.core.outstanding.filter (·.request.message.qos = .atMostOnce)).map
      (·.ending (.ok ())) ++ [.takeDrain] := by
  simp [breakConnection, (abandonSends_eq _ _ _).2]

theorem endRow_eq (row : Subscription) :
    (t.endRow row).core = t.core ∧ (t.endRow row).effects = t.effects ++ row.ending := by
  unfold endRow Subscription.ending
  split <;> simp

theorem endRows_eq (rows : Subscriptions) :
    (rows.foldl endRow t).core = t.core ∧
      (rows.foldl endRow t).effects = t.effects ++ rows.flatMap Subscription.ending :=
  foldl_appends (fun t row => (t.endRow_eq row).1) (fun t row => (t.endRow_eq row).2) rows t

theorem rejectAll_eq (works : List Work) :
    (works.foldl rejectStopped t).core = t.core ∧
      (works.foldl rejectStopped t).effects =
        t.effects ++ works.map (·.refusal .clientStopped) := by
  rw [List.map_eq_flatMap]
  exact foldl_appends (fun t w => core_reject t w .clientStopped)
    (fun t w => effects_reject t w .clientStopped) works t

theorem core_cleanup : t.cleanup.core = { t.core with
    subscriptions := []
    remakesOutstanding := 0
    outstanding := []
    pendingWork := []
    confirmations := []
    connection := none
    timer := none } := by
  simp only [cleanup]
  split <;> simp [endRows_eq, abandonSends_eq, rejectAll_eq]

theorem effects_cleanup : t.cleanup.effects = t.effects ++
    t.core.subscriptions.flatMap Subscription.ending ++
    t.core.outstanding.map (·.ending (.error .clientStopped)) ++
    t.core.pendingWork.map (·.refusal .clientStopped) ++
    t.core.timer.toList.map (.request <| .cancel ·) ++ [.takeDrain] := by
  simp only [cleanup]
  split <;> simp_all [endRows_eq, abandonSends_eq, rejectAll_eq]

theorem ending_cleanup :
    ∃ es, t.cleanup.effects = t.effects ++ es ∧ ∀ e ∈ es, e.isEnding := by
  have he := t.effects_cleanup
  simp only [List.append_assoc] at he
  refine ⟨_, he, fun e hm => ?_⟩
  simp only [List.mem_append, List.mem_flatMap, Subscription.ending, List.mem_map,
    List.mem_singleton, Option.mem_toList] at hm
  rcases hm with ⟨row, -, ⟨p, -, rfl⟩ | hm⟩ | ⟨send, -, rfl⟩ | ⟨w, -, rfl⟩ | ⟨timer, -, rfl⟩ | rfl
  · rfl
  · split at hm
    · obtain rfl := List.mem_singleton.mp hm
      rfl
    · cases hm
  · rfl
  · cases w <;> rfl
  · rfl
  · rfl

@[simp]
theorem core_settleStarts (result : Outcome) :
    (t.settleStarts result).core = { t.core with pendingStarts := [] } := by
  simp [settleStarts]

@[simp]
theorem effects_settleStarts (result : Outcome) : (t.settleStarts result).effects =
    t.effects ++ t.core.pendingStarts.map (.settle · result) := by
  simp [settleStarts]

@[simp]
theorem core_settleStops : t.settleStops.core = { t.core with pendingStops := [] } := by
  simp [settleStops]

@[simp]
theorem effects_settleStops :
    t.settleStops.effects = t.effects ++ t.core.pendingStops.map (.settle · (.ok ())) := by
  simp [settleStops]

@[simp]
theorem core_notifyCause (n : Option ClientError → Notification) :
    (t.notifyCause n).core = { t.core with lastError := none } := rfl

@[simp]
theorem effects_notifyCause (n : Option ClientError → Notification) :
    (t.notifyCause n).effects = t.effects ++ [.notify (n t.core.lastError)] := by
  simp [notifyCause]

@[simp]
theorem core_resumeStart : t.resumeStart.core = t.core := by
  unfold resumeStart; split <;> rfl

@[simp]
theorem effects_resumeStart : t.resumeStart.effects =
    t.effects ++ if t.core.pendingStarts = [] then [] else [.post (.start none)] := by
  unfold resumeStart; split <;> simp_all

end Actions

end Turn

end PubSub
