import PubSub.Proofs.Sources

/-! # The traffic of sends

A send is kept until there is a connection, passed to the transport under a
new number, and outstanding until it is answered. A lost connection brings a
send with a guarantee back to the kept ones and is the end of one without.
Everything else that a turn does leaves the sends alone.
-/

namespace PubSub

open Turn

def Work.send? : Work → Option SendRequest
  | send r => some r
  | subscribe _ | unsubscribe _ => none

theorem Work.send?_eq_some {w : Work} {r : SendRequest} : w.send? = some r ↔ w = .send r := by
  cases w <;> simp [send?]

/-- The send that is passed to the transport, which the core has entered just before. -/
def Issued.attempt? (i : Issued) : Option OutstandingSend :=
  match i.effect with
  | .request (.send ..) => i.core.outstanding.getLast?
  | _ => none

def Effect.finished? : Effect → Option (PromiseId × Outcome)
  | finishSend p result => some (p, result)
  | _ => none

namespace Effect

def isSend : Effect → Bool
  | request (.send ..) => true
  | _ => false

theorem isSend_of_transmits {e : Effect} (h : e.transmits = false) : e.isSend = false := by
  cases e with
  | request r => cases r <;> first | rfl | cases h
  | _ => rfl

end Effect

theorem Issued.attempt?_of_isSend {i : Issued} (h : i.effect.isSend = false) :
    i.attempt? = none := by
  unfold attempt?
  split
  · next he => simp [he, Effect.isSend] at h
  · rfl

namespace OutstandingSend

def transmission (send : OutstandingSend) : Effect :=
  .request (.send send.connection send.id send.request.message)

/-- The send is over once its connection is lost. -/
def isWeak (send : OutstandingSend) : Bool := send.request.message.qos = .atMostOnce

/-- Sends that are passed to the transport on a connection after the first `n` ones. -/
def batch (k : ConnectionId) (n : Nat) : List SendRequest → List OutstandingSend
  | [] => []
  | r :: rs => ⟨n + 1, k, r⟩ :: batch k (n + 1) rs

@[simp]
theorem request_batch (k : ConnectionId) (n : Nat) (rs : List SendRequest) :
    (batch k n rs).map (·.request) = rs := by
  induction rs generalizing n with
  | nil => rfl
  | cons r rs ih => simp [batch, ih]

theorem id_batch (k : ConnectionId) (n : Nat) (rs : List SendRequest) :
    (batch k n rs).map (·.id) = List.range' (n + 1) rs.length := by
  induction rs generalizing n with
  | nil => rfl
  | cons r rs ih => simp [batch, ih, List.range'_succ]

end OutstandingSend

@[ext]
structure Traffic where
  kept : List SendRequest
  sends : Nat
  outstanding : List OutstandingSend
  /-- What has been passed to the transport. -/
  attempts : List OutstandingSend
  /-- The effects by which it was passed. -/
  wire : List Effect
  /-- What has come to an end, with its result. -/
  finished : List (PromiseId × Outcome)

namespace Traffic

variable (d : Traffic) (k : ConnectionId)

def keep (r : SendRequest) : Traffic := { d with kept := d.kept ++ [r] }

def finish (p : PromiseId) (result : Outcome) : Traffic :=
  { d with finished := d.finished ++ [(p, result)] }

def pass (rs : List SendRequest) : Traffic :=
  { d with
    sends := d.sends + rs.length
    outstanding := d.outstanding ++ OutstandingSend.batch k d.sends rs
    attempts := d.attempts ++ OutstandingSend.batch k d.sends rs
    wire := d.wire ++ (OutstandingSend.batch k d.sends rs).map (·.transmission) }

def answer (send : OutstandingSend) (result : Outcome) : Traffic :=
  { d with
    outstanding := d.outstanding.filter (·.id ≠ send.id)
    finished := d.finished ++ [(send.request.promise, result)] }

def interrupt : Traffic :=
  { d with
    kept := (d.outstanding.filter (!·.isWeak)).map (·.request) ++ d.kept
    outstanding := []
    finished := d.finished ++ (d.outstanding.filter (·.isWeak)).map (·.request.promise, .ok ()) }

def close : Traffic :=
  { d with
    kept := []
    outstanding := []
    finished := d.finished ++
      d.outstanding.map (fun send =>
        (send.request.promise, if send.isWeak then .ok () else .error .clientStopped)) ++
      d.kept.map (·.promise, .error .clientStopped) }

/-- The kept sends are passed to the transport. -/
def resume : Traffic := pass { d with kept := [] } k d.kept

/-- What comes after the traffic of earlier turns. -/
def since (earlier : Traffic) : Traffic :=
  { d with
    attempts := earlier.attempts ++ d.attempts
    wire := earlier.wire ++ d.wire
    finished := earlier.finished ++ d.finished }

@[simp]
theorem pass_nil : d.pass k [] = d := by
  simp [pass, OutstandingSend.batch]

theorem pass_cons (r : SendRequest) (rs : List SendRequest) :
    d.pass k (r :: rs) = (d.pass k [r]).pass k rs := by
  simp [pass, OutstandingSend.batch, Nat.add_assoc, Nat.add_comm 1]

end Traffic

def Turn.traffic (t : Turn) : Traffic where
  kept := t.core.pendingWork.filterMap Work.send?
  sends := t.core.sends
  outstanding := t.core.outstanding
  attempts := t.issued.filterMap Issued.attempt?
  wire := t.effects.filter (·.isSend)
  finished := t.issued.filterMap (·.effect.finished?)

def Core.traffic (c : Core) : Traffic := (begin c).traffic

namespace Turn

variable {t t' : Turn} {k : ConnectionId}

theorem traffic_emit (t : Turn) (e : Effect) : (t.emit e).traffic = { t.traffic with
    attempts := t.traffic.attempts ++ (Issued.attempt? ⟨e, t.core⟩).toList
    wire := t.traffic.wire ++ [e].filter (·.isSend)
    finished := t.traffic.finished ++ e.finished?.toList } := by
  have hsingle {α β : Type} (f : α → Option β) (x : α) : [x].filterMap f = (f x).toList := by
    cases hx : f x <;> simp [hx]
  simp only [traffic, emit, effects, List.map_append, List.filter_append, List.filterMap_append,
    hsingle]
  rfl

theorem Leaves.traffic (h : t.Leaves t') : t'.traffic = t.traffic := by
  obtain ⟨more, hi, hm⟩ := h.issued
  have hsend (i : Issued) (hmem : i ∈ more) : i.effect.isSend = false :=
    Effect.isSend_of_transmits
      (Effect.transmits_of_not_isOfLoad (Issued.isOfLoad_eq_false.mp (hm i hmem)).1)
  have hf : more.filterMap (·.effect.finished?) = [] := by
    rw [List.filterMap_eq_nil_iff]
    intro i hmem
    have he := (Issued.isOfLoad_eq_false.mp (hm i hmem)).1
    cases hi : i.effect with
    | finishSend => rw [hi] at he; cases he
    | _ => rfl
  have ha : more.filterMap Issued.attempt? = [] := by
    rw [List.filterMap_eq_nil_iff]
    exact fun i hmem => Issued.attempt?_of_isSend (hsend i hmem)
  have hw : (more.map (·.effect)).filter (·.isSend) = [] := by
    rw [List.filter_eq_nil_iff]
    intro e he
    obtain ⟨i, hmem, rfl⟩ := List.mem_map.mp he
    simp [hsend i hmem]
  have hkept : t'.core.pendingWork = t.core.pendingWork := congrArg Load.pendingWork h.load
  have hsends : t'.core.sends = t.core.sends := congrArg Load.sends h.load
  have hout : t'.core.outstanding = t.core.outstanding := congrArg Load.outstanding h.load
  simp [Turn.traffic, effects, hkept, hsends, hout, hi, ha, hf, hw]

theorem traffic_emit_of_not (t : Turn) {e : Effect} (he : e.isSend = false)
    (hf : e.finished? = none) : (t.emit e).traffic = t.traffic := by
  rw [traffic_emit, hf, Issued.attempt?_of_isSend he]
  simp [he]

@[simp]
theorem traffic_settle (t : Turn) (result : Outcome) (p : PromiseId) :
    (t.settle result p).traffic = t.traffic := traffic_emit_of_not t rfl rfl

@[simp]
theorem traffic_notify (t : Turn) (n : Notification) : (t.notify n).traffic = t.traffic :=
  traffic_emit_of_not t rfl rfl

@[simp]
theorem traffic_putRow (t : Turn) (row : Subscription) : (t.putRow row).traffic = t.traffic := rfl

@[simp]
theorem traffic_eraseRow (t : Turn) (topic : Topic) : (t.eraseRow topic).traffic = t.traffic := rfl

@[simp]
theorem traffic_settleAll (t : Turn) (ps : List PromiseId) (result : Outcome) :
    (t.settleAll ps result).traffic = t.traffic := by
  induction ps generalizing t with
  | nil => rfl
  | cons p ps ih => exact (ih (t.settle result p)).trans (traffic_settle t result p)

theorem traffic_executeSend (t : Turn) (k : ConnectionId) (r : SendRequest) :
    (t.executeSend k r).traffic = t.traffic.pass k [r] := by
  rw [executeSend, request, traffic_emit]
  simp [traffic, update, effects, Traffic.pass, OutstandingSend.batch, Issued.attempt?,
    Effect.finished?, Effect.isSend, OutstandingSend.transmission]

theorem traffic_executeSubscribe (t : Turn) (k : ConnectionId) (r : SubscribeRequest) :
    (t.executeSubscribe k r).traffic = t.traffic := by
  unfold executeSubscribe
  split
  · exact traffic_emit_of_not (t.putRow _) rfl rfl
  · split
    · exact traffic_settle ..
    · exact traffic_putRow ..

theorem traffic_executeUnsubscribe (t : Turn) (k : ConnectionId) (r : UnsubscribeRequest) :
    (t.executeUnsubscribe k r).traffic = t.traffic := by
  unfold executeUnsubscribe
  split
  · exact traffic_settle ..
  · split
    · exact traffic_emit_of_not (t.putRow _) rfl rfl
    · exact traffic_putRow ..

theorem traffic_execute (hk : t.core.connection = some k) (w : Work) :
    (t.execute w).traffic = t.traffic.pass k w.send?.toList := by
  cases w with
  | send r =>
    simp only [execute, hk]
    exact traffic_executeSend t k r
  | subscribe r =>
    simp only [execute, hk]
    exact (traffic_executeSubscribe t k r).trans (t.traffic.pass_nil k).symm
  | unsubscribe r =>
    simp only [execute, hk]
    exact (traffic_executeUnsubscribe t k r).trans (t.traffic.pass_nil k).symm

theorem traffic_replay (hp : t.core.phase = .started) (hk : t.core.connection = some k)
    (ws : List Work) : (t.replay ws).traffic = t.traffic.pass k (ws.filterMap Work.send?) := by
  induction ws generalizing t with
  | nil => exact (t.traffic.pass_nil k).symm
  | cons w ws ih =>
    have hs : (t.onWork w).core.course = t.core.course := (stays_onWork t w).course
    have hw := ih (t := t.onWork w) ((congrArg Course.phase hs).trans hp)
      ((congrArg Course.connection hs).trans hk)
    rw [replay, List.foldl_cons, ← replay, hw, onWork_of_started hp, traffic_execute hk]
    cases w with
    | send r => exact (t.traffic.pass_cons k r _).symm
    | _ => exact congrArg (Traffic.pass · k _) (t.traffic.pass_nil k)

/-- What comes to the record of a turn, if the sends that it passes on are known. -/
theorem traffic_of_effects (h : t.Extends t') {es : List Effect}
    (he : t'.effects = t.effects ++ es) (hes : ∀ e ∈ es, e.isSend = false) :
    t'.traffic.attempts = t.traffic.attempts ∧ t'.traffic.wire = t.traffic.wire ∧
      t'.traffic.finished = t.traffic.finished ++ es.filterMap Effect.finished? := by
  obtain ⟨more, hi, rfl⟩ := h.issued he
  have ha : more.filterMap Issued.attempt? = [] := by
    rw [List.filterMap_eq_nil_iff]
    exact fun i hm => Issued.attempt?_of_isSend (hes _ (List.mem_map_of_mem hm))
  have hw : (more.map (·.effect)).filter (·.isSend) = [] := by
    rw [List.filter_eq_nil_iff]
    exact fun e hm => by simp [hes e hm]
  simp only [traffic, effects, hi, List.map_append, List.filter_append, List.filterMap_append, ha,
    hw, List.append_nil, List.filterMap_map, true_and]
  rfl

variable {known : Work → Prop}

theorem send?_recovered (h : t.core.load.StemsFrom known) :
    t.core.subscriptions.recovered.filterMap Work.send? = [] := by
  rw [List.filterMap_eq_nil_iff]
  intro w hw
  obtain ⟨row, hrow, hw⟩ := List.mem_flatMap.mp hw
  have hon := ((h.rows row hrow).recovered w hw).1
  cases w with
  | send r => cases hon
  | _ => rfl

theorem send?_map (sends : List OutstandingSend) :
    (sends.map (Work.send ·.request)).filterMap Work.send? = sends.map (·.request) := by
  rw [List.filterMap_map, ← List.filterMap_eq_map]
  rfl

theorem finished?_endings (result : Outcome) (sends : List OutstandingSend) :
    (sends.map (·.ending result)).filterMap Effect.finished? =
      sends.map fun send => (send.request.promise, if send.isWeak then .ok () else result) := by
  rw [List.filterMap_map, ← List.filterMap_eq_map]
  simp [Function.comp_def, OutstandingSend.ending, Effect.finished?, OutstandingSend.isWeak]

theorem finished?_refusals (cause : ClientError) (ws : List Work) :
    (ws.map (·.refusal cause)).filterMap Effect.finished? =
      (ws.filterMap Work.send?).map (·.promise, .error cause) := by
  induction ws with
  | nil => rfl
  | cons w ws ih =>
    rw [List.map_cons, List.filterMap_cons, ih]
    cases w <;> rfl

theorem finished?_rows (rows : Subscriptions) :
    (rows.flatMap Subscription.ending).filterMap Effect.finished? = [] := by
  rw [List.filterMap_eq_nil_iff]
  intro e he
  obtain ⟨row, -, he⟩ := List.mem_flatMap.mp he
  simp only [Subscription.ending, List.mem_append, List.mem_map] at he
  rcases he with ⟨p, -, rfl⟩ | he
  · rfl
  · split at he
    · obtain rfl := List.mem_singleton.mp he
      rfl
    · cases he

theorem traffic_breakConnection (h : t.core.load.StemsFrom known) :
    t.breakConnection.traffic = t.traffic.interrupt := by
  have he := t.effects_breakConnection
  rw [List.append_assoc] at he
  obtain ⟨ha, hw, hf⟩ := traffic_of_effects (.breakConnection t) he (by
    simp only [List.mem_append, List.mem_map, List.mem_singleton]
    rintro e (⟨send, -, rfl⟩ | rfl) <;> rfl)
  apply Traffic.ext
  · simp only [traffic, core_breakConnection, List.filterMap_append, send?_recovered h, send?_map,
      List.append_nil]
    rfl
  · simp only [traffic, core_breakConnection]
    rfl
  · simp only [traffic, core_breakConnection]
    rfl
  · exact ha
  · exact hw
  · rw [hf, List.filterMap_append, finished?_endings]
    simp only [ite_self]
    exact congrArg _ (List.append_nil _)

theorem traffic_cleanup (t : Turn) : t.cleanup.traffic = t.traffic.close := by
  have he := t.effects_cleanup
  simp only [List.append_assoc] at he
  obtain ⟨ha, hw, hf⟩ := traffic_of_effects (.cleanup t) he (by
    obtain ⟨es, hes, hending⟩ := ending_cleanup t
    obtain rfl := List.append_cancel_left (he.symm.trans hes)
    intro e hm
    have := hending e hm
    cases e with
    | request r => cases r <;> first | rfl | cases this
    | _ => rfl)
  apply Traffic.ext
  · simp only [traffic, core_cleanup]
    rfl
  · simp only [traffic, core_cleanup]
    rfl
  · simp only [traffic, core_cleanup]
    rfl
  · exact ha
  · exact hw
  · have htimer : (t.core.timer.toList.map (Effect.request <| .cancel ·)).filterMap
        Effect.finished? = [] := by cases t.core.timer <;> rfl
    rw [hf]
    simp only [List.filterMap_append, finished?_rows, finished?_endings, finished?_refusals, htimer,
      List.nil_append, Traffic.close, List.append_assoc]
    exact congrArg _ (congrArg _ (List.append_nil _))

theorem traffic_keep (t : Turn) (w : Work) : (t.keep w).traffic =
    { t.traffic with kept := t.traffic.kept ++ w.send?.toList } := by
  cases w <;> simp [traffic, keep, update, effects, Work.send?]

theorem traffic_reject (t : Turn) (w : Work) (cause : ClientError) :
    (t.reject w cause).traffic = { t.traffic with
      finished := t.traffic.finished ++ w.send?.toList.map (·.promise, .error cause) } := by
  cases w with
  | send r =>
    rw [reject, finishSend, traffic_emit]
    simp [Issued.attempt?, Effect.finished?, Effect.isSend, Work.send?]
  | subscribe r | unsubscribe r => simp [reject, Work.send?]

theorem traffic_replayPending (hp : t.core.phase = .started) (hk : t.core.connection = some k) :
    t.replayPending.traffic = t.traffic.resume k :=
  traffic_replay (t := t.update fun c => { c with pendingWork := [] }) hp hk t.core.pendingWork

@[simp]
theorem traffic_remakeSettled (t : Turn) : t.remakeSettled.traffic = t.traffic := by
  unfold remakeSettled
  dsimp only
  split
  · exact traffic_emit_of_not (t.update _) rfl rfl
  · rfl

theorem traffic_remake (t : Turn) : t.remake.traffic = t.traffic := by
  have hsubscribe (k : ConnectionId) (params : List SubscribeParams) (u : Turn) :
      (params.foldl (subscribeAgain k) u).traffic = u.traffic := by
    induction params generalizing u with
    | nil => rfl
    | cons p params ih => exact (ih _).trans (traffic_emit_of_not u rfl rfl)
  unfold remake
  split
  · exact traffic_emit_of_not t rfl rfl
  · dsimp only
    split
    · exact traffic_emit_of_not (t.update _) rfl rfl
    · exact hsubscribe ..

theorem traffic_onWork_of_none {w : Work} (hw : w.send? = none) :
    (t.onWork w).traffic = t.traffic := by
  have hkeep : (t.keep w).traffic = t.traffic := by simp [traffic_keep, hw]
  unfold onWork
  split
  · simp [traffic_reject, hw]
  · exact hkeep
  · cases hk : t.core.connection with
    | none => simpa only [execute, hk] using hkeep
    | some k => simp [traffic_execute hk, hw]

theorem traffic_replay_of_none {ws : List Work} (hws : ∀ w ∈ ws, w.send? = none) (t : Turn) :
    (t.replay ws).traffic = t.traffic := by
  induction ws generalizing t with
  | nil => rfl
  | cons w ws ih =>
    exact (ih (fun v hv => hws v (List.mem_cons_of_mem _ hv)) (t.onWork w)).trans
      (traffic_onWork_of_none (hws w (List.mem_cons_self ..)))

theorem traffic_replay_row {row : Subscription} (hrow : row.StemsFrom known) (t : Turn) :
    (t.replay row.pending).traffic = t.traffic := by
  refine traffic_replay_of_none (fun w hw => ?_) t
  have hon := (hrow.pending w hw).1
  cases w with
  | send r => cases hon
  | _ => rfl

theorem traffic_onSubscribed (h : t.core.load.StemsFrom known) (k : ConnectionId) (topic : Topic)
    (result : Outcome) : (t.onSubscribed k topic result).traffic = t.traffic := by
  unfold onSubscribed
  split
  · split
    · rfl
    · next row hf =>
      have hrow := h.rows row (Subscriptions.find?_eq_some hf).1
      split_ifs
      · rfl
      · unfold onSubscribedStopping
        split <;> simp
      · cases result <;> simp [onRemade]
      · cases result <;> simp [onAttached, traffic_replay_row hrow]
  · rfl

theorem traffic_onUnsubscribed (h : t.core.load.StemsFrom known) (k : ConnectionId) (topic : Topic)
    (result : Outcome) : (t.onUnsubscribed k topic result).traffic = t.traffic := by
  unfold onUnsubscribed
  split
  · split
    · rfl
    · split
      · rfl
      · next row hf =>
        have hrow := h.rows row (Subscriptions.find?_eq_some hf).1
        cases result <;> simp [onDetached, traffic_replay_row hrow]
  · rfl

/-- The answer to a send that is not outstanding, or to one whose connection is lost, is passed
over. -/
theorem onSent_cases (t : Turn) (k : ConnectionId) (id : Nat) (result : Outcome) :
    t.onSent k id result = t ∨ ∃ send, t.core.outstanding.find? (·.id = id) = some send ∧
      send.connection = k ∧ Outcome.isRetryable result = false ∧
      (t.onSent k id result).traffic = t.traffic.answer send result := by
  unfold onSent
  split
  · exact .inl rfl
  · next send hf =>
    have hid : send.id = id := by simpa using List.find?_some hf
    split_ifs with hk hr
    · exact .inl rfl
    · exact .inl rfl
    · refine .inr ⟨send, hf, by simpa using hk, by simpa using hr, ?_⟩
      rw [finishSend, traffic_emit]
      simp [traffic, update, effects, Traffic.answer, Issued.attempt?, Effect.finished?,
        Effect.isSend, hid]

end Turn

def Signal.send? : Signal → Option SendRequest
  | work w => w.send?
  | _ => none

theorem Signal.send?_eq_some {x : Signal} {r : SendRequest} :
    x.send? = some r ↔ x = .work (.send r) := by
  cases x <;> simp [send?, Work.send?_eq_some]

theorem Signal.send?_of_isPlain {x : Signal} (hx : x.isPlain) : x.send? = none := by
  cases x with
  | work w => cases hx
  | _ => rfl

inductive Carries (c : Core) (x : Signal) (d : Traffic) : Traffic → Prop
  | leaves (hx : x.send? = none) : Carries c x d d
  | keeps {r : SendRequest} (hx : x = .work (.send r)) : Carries c x d (d.keep r)
  | refuses {r : SendRequest} (hx : x = .work (.send r)) (policy : c.phase.view.work = .reject) :
    Carries c x d (d.finish r.promise (.error .clientStopped))
  | passes {r : SendRequest} {k : ConnectionId} (hx : x = .work (.send r))
    (policy : c.phase.view.work = .accept) (current : c.connection = some k) :
    Carries c x d (d.pass k [r])
  | answers {send : OutstandingSend} {result : Outcome}
    (hx : x = .sent send.connection send.id result)
    (found : d.outstanding.find? (·.id = send.id) = some send)
    (final : Outcome.isRetryable result = false) : Carries c x d (d.answer send result)
  | interrupts (hx : x.isPlain) : Carries c x d d.interrupt
  | closes {t : Turn} (performs : c.Performs x .cleanup t) : Carries c x d d.close
  | interruptsAndCloses {t : Turn} (performs : c.Performs x .cleanup t) :
    Carries c x d d.interrupt.close
  | resumes {k : ConnectionId} {t : Turn} (performs : c.Performs x .replayPendingWork t)
    (current : t.core.connection = some k) : Carries c x d (d.resume k)

theorem carries_work (c : Core) (w : Work) :
    Carries c (.work w) c.traffic (c.handle (.work w)).traffic := by
  cases hw : w.send? with
  | none =>
    have hleaves : (c.handle (.work w)).traffic = c.traffic :=
      traffic_onWork_of_none (t := begin c) hw
    exact hleaves ▸ .leaves hw
  | some r =>
    obtain rfl := Work.send?_eq_some.mp hw
    have hkeep : ((begin c).keep (.send r)).traffic = c.traffic.keep r := traffic_keep ..
    cases hp : c.phase.view.work with
    | reject =>
      have hon : c.handle (.work (.send r)) = (begin c).reject (.send r) .clientStopped := by
        simp only [Core.handle, Turn.handle, onWork, core_begin, hp]
      have hreject : ((begin c).reject (.send r) .clientStopped).traffic =
          c.traffic.finish r.promise (.error .clientStopped) := traffic_reject ..
      exact hon ▸ hreject ▸ .refuses rfl hp
    | queue =>
      have hon : c.handle (.work (.send r)) = (begin c).keep (.send r) := by
        simp only [Core.handle, Turn.handle, onWork, core_begin, hp]
      exact hon ▸ hkeep ▸ .keeps rfl
    | accept =>
      have hon : c.handle (.work (.send r)) = (begin c).execute (.send r) := by
        simp only [Core.handle, Turn.handle, onWork, core_begin, hp]
      cases hk : c.connection with
      | none =>
        have hexecute : (begin c).execute (.send r) = (begin c).keep (.send r) := by
          simp only [execute, core_begin, hk]
        exact hon ▸ hexecute ▸ hkeep ▸ .keeps rfl
      | some k =>
        have hpass : ((begin c).execute (.send r)).traffic = c.traffic.pass k [r] :=
          traffic_execute (t := begin c) hk (.send r)
        exact hon ▸ hpass ▸ .passes rfl hp hk

theorem Handles.carries {c : Core} {env : Awaited → Nat} {x : Signal} (h : Handles c env x)
    {known : Work → Prop} (hk : c.load.StemsFrom known) :
    Carries c x c.traffic (c.handle x).traffic := by
  have hleaves (he : (c.handle x).traffic = c.traffic) (hx : x.send? = none) :
      Carries c x c.traffic (c.handle x).traffic := he ▸ .leaves hx
  cases h.loads with
  | leaves hp hl => exact hleaves hl.traffic (Signal.send?_of_isPlain hp)
  | steady hx hp =>
    cases x with
    | work w => exact carries_work c w
    | sent k id result =>
      rcases onSent_cases (begin c) k id result with he | ⟨send, hf, rfl, hr, he⟩
      · exact hleaves (congrArg traffic he) rfl
      · have he : (c.handle (.sent send.connection id result)).traffic =
          c.traffic.answer send result := he
        obtain rfl : send.id = id := by simpa using List.find?_some hf
        exact he ▸ .answers rfl hf hr
    | subscribed k topic result => exact hleaves (traffic_onSubscribed (t := begin c) hk ..) rfl
    | unsubscribed k topic result => exact hleaves (traffic_onUnsubscribed (t := begin c) hk ..) rfl
    | _ => cases hp
  | @once a t ha performs before after =>
    have hbefore : t.traffic = c.traffic := before.traffic
    cases a with
    | remakeSubscriptions =>
      refine hleaves (after.traffic.trans ?_) (Signal.send?_of_isPlain performs.isPlain)
      rw [perform, traffic_remake, hbefore]
    | breakConnection =>
      have he : (c.handle x).traffic = c.traffic.interrupt := by
        rw [after.traffic, perform, traffic_breakConnection (before.load ▸ hk), hbefore]
      exact he ▸ .interrupts performs.isPlain
    | cleanup =>
      have he : (c.handle x).traffic = c.traffic.close := by
        rw [after.traffic, perform, traffic_cleanup, hbefore]
      exact he ▸ .closes performs
    | replayPendingWork =>
      obtain ⟨m, m', hc, hm, hp⟩ := h.performs performs
      simp only [Marks.act, Option.ite_none_right_eq_some] at hm
      have hconnected : m.connected = true := congrArg Marks.connected hm.1.2
      have hk := hc.connection_of_connected hconnected
      have hresume := traffic_replayPending (hp rfl) hk
      have he := (after.traffic.trans hresume).trans (congrArg (Traffic.resume · _) hbefore)
      exact he ▸ .resumes performs hk
    | _ => cases ha
  | @twice t u performs performs' before middle after =>
    have he : (c.handle x).traffic = c.traffic.interrupt.close := by
      rw [after.traffic, traffic_cleanup, middle.traffic,
        traffic_breakConnection (before.load ▸ hk), before.traffic]
      rfl
    exact he ▸ .interruptsAndCloses performs'

/-- What came before does not matter to a turn. -/
theorem Carries.since {c : Core} {x : Signal} {d d' : Traffic} (h : Carries c x d d')
    (earlier : Traffic) : Carries c x (d.since earlier) (d'.since earlier) := by
  cases h with
  | leaves hx => exact .leaves hx
  | keeps hx => exact .keeps hx
  | refuses hx policy =>
    simp only [Traffic.finish, Traffic.since, ← List.append_assoc]
    exact .refuses hx policy
  | passes hx policy current =>
    simp only [Traffic.pass, Traffic.since, ← List.append_assoc]
    exact .passes hx policy current
  | answers hx found final =>
    simp only [Traffic.answer, Traffic.since, ← List.append_assoc]
    exact .answers hx found final
  | interrupts hx =>
    simp only [Traffic.interrupt, Traffic.since, ← List.append_assoc]
    exact .interrupts hx
  | closes performs =>
    simp only [Traffic.close, Traffic.since, ← List.append_assoc]
    exact .closes performs
  | interruptsAndCloses performs =>
    simp only [Traffic.interrupt, Traffic.close, Traffic.since, ← List.append_assoc]
    exact .interruptsAndCloses performs
  | resumes performs current =>
    simp only [Traffic.resume, Traffic.pass, Traffic.since, ← List.append_assoc]
    exact .resumes performs current

end PubSub
