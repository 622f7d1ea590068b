import PubSub.Proofs.Outage
import PubSub.Proofs.Timers
import PubSub.Proofs.Weights

/-! # Trying again

In an outage a client stands in one of six stages. Every signal that may come
either leaves it there or leads to the next stage, and what the turn shows is
the next part of what is to be shown.
-/

namespace PubSub

open Turn

namespace Outage

inductive Stage where
  /-- The start has not been handled. -/
  | ready
  | looking
  | opening
  | waiting
  /-- The callbacks are flushed. -/
  | ending
  | finished
  deriving DecidableEq, Repr

/-- The uses of the endpoints of which the answers have not been handled. -/
def Stage.uses : Stage → List Rotation.Use
  | looking => [.lookup]
  | _ => []

variable (o : Outage)

/-- A core that holds no more than kept work, and whose user did not stop it. -/
structure Bare (c : Core) : Prop where
  stoppedByUser : c.stoppedByUser = false
  pendingStops : c.pendingStops = []
  outstanding : c.outstanding = []
  subscriptions : c.subscriptions = []
  confirmations : c.confirmations = []
  work : ∀ w ∈ c.pendingWork, w.promise ≠ o.start

/-- Where a client stands, with the rotation as it was before the uses of the stage, and what is
still to be shown. -/
inductive Stands (es : List Endpoint) (limit : Nat) (c : Core) (r : Rotation)
    (rest : List Effect) : Stage → Prop
  | ready {delays : List Duration} (phase : c.phase = .stopped) (starts : c.pendingStarts = [])
    (connection : c.connection = none) (timer : c.timer = none) (connections : c.connections = 0)
    (timers : c.timers = 0) (offers : r.Offers es limit es delays)
    (rest_eq : rest = o.trace es limit delays) : Stands es limit c r rest .ready
  | looking {left : List Endpoint} {delays : List Duration}
    (phase : c.phase = .startingLookup ∨ c.phase = .retryLookup)
    (starts : c.pendingStarts = [o.start]) (connection : c.connection = none)
    (timer : c.timer = none) (error : c.lastError = none) (offers : r.Offers es limit left delays)
    (rest_eq : rest = o.rounds es limit c.connections c.timers left delays) :
    Stands es limit c r rest .looking
  | opening {left : List Endpoint} {delays : List Duration}
    (phase : c.phase = .startingOpen ∨ c.phase = .retryOpen)
    (starts : c.pendingStarts = [o.start]) (connection : c.connection = some ⟨c.connections⟩)
    (timer : c.timer = none) (error : c.lastError = none) (offers : r.Offers es limit left delays)
    (rest_eq : rest = .notify (.retrying (some (o.error ⟨c.connections⟩))) ::
      o.rounds es limit c.connections c.timers left delays) : Stands es limit c r rest .opening
  | waiting {delays : List Duration} (phase : c.phase = .retryWait)
    (starts : c.pendingStarts = [o.start]) (connection : c.connection = none)
    (timer : c.timer = some c.timers) (error : c.lastError = none)
    (offers : r.Offers es limit es delays)
    (rest_eq : rest = o.rounds es limit c.connections c.timers es delays) :
    Stands es limit c r rest .waiting
  | ending (phase : c.phase = .stoppingFlush) (starts : c.pendingStarts = [])
    (connection : c.connection = none) (timer : c.timer = none)
    (error : c.lastError = some (.retryLimit limit))
    (rest_eq : rest = [.notify (.stopped (some (.retryLimit limit)))]) :
    Stands es limit c r rest .ending
  | finished (phase : c.phase = .stopped) (starts : c.pendingStarts = [])
    (connection : c.connection = none) (timer : c.timer = none) (rest_eq : rest = []) :
    Stands es limit c r rest .finished

/-- The turn of a signal leads from where the client stands to where it stands next. -/
structure Leads (es : List Endpoint) (limit : Nat) (c : Core) (x : Signal) (r : Rotation)
    (stage : Stage) (rest : List Effect) (r' : Rotation) (stage' : Stage) (rest' : List Effect) :
    Prop where
  stands : o.Stands es limit (c.handle x).core r' rest' stage'
  bare : o.Bare (c.handle x).core
  shown : rest = (c.handle x).effects.filter o.shows ++ rest'
  posted : ∀ e ∈ (c.handle x).effects, e.posted = []
  /-- The answer that the signal brings is handled, and what the turn asks for is asked. -/
  uses : ∃ before, r' = r.after before ∧
    stage.uses ++ (c.handle x).effects.filterMap Effect.use? = before ++ stage'.uses ∧
      x.lookup?.toList.map some = (r.answers before).map (·.result?)
  started : stage' = .ready ↔ stage = .ready ∧ x ≠ .start (some o.start)
  weight : ((c.handle x).effects.map Effect.weight).sum +
      3 * (c.handle x).core.pendingWork.length + 10 * rest'.length <
    x.weight + 3 * c.pendingWork.length + 10 * rest.length

variable {o} {es : List Endpoint} {limit : Nat} {c : Core} {r : Rotation} {rest : List Effect}

theorem Leads.of_turn {x : Signal} {stage stage' : Stage} {r' : Rotation} {c' : Core}
    {effects rest' : List Effect} (hc : (c.handle x).core = c')
    (he : (c.handle x).effects = effects) (stands : o.Stands es limit c' r' rest' stage')
    (bare : o.Bare c') (shown : rest = effects.filter o.shows ++ rest')
    (posted : ∀ e ∈ effects, e.posted = [])
    (uses : ∃ before, r' = r.after before ∧
      stage.uses ++ effects.filterMap Effect.use? = before ++ stage'.uses ∧
        x.lookup?.toList.map some = (r.answers before).map (·.result?))
    (started : stage' = .ready ↔ stage = .ready ∧ x ≠ .start (some o.start))
    (weight : (effects.map Effect.weight).sum + 3 * c'.pendingWork.length + 10 * rest'.length <
      x.weight + 3 * c.pendingWork.length + 10 * rest.length) :
    o.Leads es limit c x r stage rest r' stage' rest' := by
  subst hc he
  exact ⟨stands, bare, shown, posted, uses, started, weight⟩

theorem Stands.start (h : o.Stands es limit c r rest .ready) (hb : o.Bare c) :
    ∃ rest', o.Leads es limit c (.start (some o.start)) r .ready rest r .looking rest' := by
  cases h with
  | @ready delays phase starts connection timer connections timers offers rest_eq =>
    have hn : c.phase.transition .start =
        some ⟨.startingLookup, [.resetSession, .notifyStarting, .requestEndpoint]⟩ := by
      rw [phase]
      rfl
    have hh := Core.handle_of_transition (c := c) (x := .start (some o.start)) rfl hn
    have hc : (c.handle (.start (some o.start))).core = { c with
        phase := .startingLookup, pendingStarts := [o.start], lastError := none
        stoppedByUser := false, retryDelay := .zero } := by
      rw [hh]
      simp [Turn.perform, Signal.prepare, starts]
    have he : (c.handle (.start (some o.start))).effects =
        [.publish .starting, .notify .starting, .request .lookup] := by
      rw [hh]
      simp [Turn.perform, Phase.view]
    refine ⟨o.rounds es limit 0 0 es delays, .of_turn hc he ?_ { hb with stoppedByUser := rfl }
      rest_eq (by simp [Effect.posted]) ⟨[], rfl, rfl, rfl⟩ (by simp) ?_⟩
    · exact .looking (.inl rfl) rfl connection timer rfl offers (by rw [connections, timers])
    · simp [Effect.weight, Signal.weight, rest_eq, trace]
      omega

theorem Stands.found {e : Endpoint} (h : o.Stands es limit c r rest .looking) (hb : o.Bare c)
    (hr : r.next.1 = .found e) : ∃ rest', o.Leads es limit c
      (.endpointAnswered (.ok (.found e))) r .looking rest r.next.2 .opening rest' := by
  cases h with
  | @looking left delays phase starts connection timer error offers rest_eq =>
    obtain ⟨next, hnext, hn⟩ : ∃ next, (next = .startingOpen ∨ next = .retryOpen) ∧
        c.phase.transition .endpointFound = some ⟨next, [.openConnection]⟩ := by
      rcases phase with hp | hp <;> rw [hp]
      · exact ⟨_, .inl rfl, rfl⟩
      · exact ⟨_, .inr rfl, rfl⟩
    obtain ⟨left, rfl, hoffers⟩ := offers.of_found hr
    have hh := Core.handle_of_transition (c := c) (x := .endpointAnswered (.ok (.found e))) rfl hn
    have hconnect := Turn.connect_of_endpoint
      (c.entering (.endpointAnswered (.ok (.found e))) next) (e := e) rfl
    have hc : (c.handle (.endpointAnswered (.ok (.found e)))).core = { c with
        phase := next, endpoint := some e, connections := c.connections + 1
        connection := some ⟨c.connections + 1⟩ } := by
      rw [hh]
      exact hconnect.1
    have he : (c.handle (.endpointAnswered (.ok (.found e)))).effects =
        [.publish next.view, .request (.connect ⟨c.connections + 1⟩ e)] := by
      rw [hh]
      exact hconnect.2
    rw [rounds_cons] at rest_eq
    refine ⟨_, .of_turn hc he (.opening hnext starts rfl timer error hoffers rfl) { hb with }
      rest_eq (by simp [Effect.posted]) ⟨[.lookup], rfl, rfl, ?_⟩ (by simp) ?_⟩
    · simp [Signal.lookup?, Rotation.answers, hr, Rotation.Answer.result?]
    · simp [Effect.weight, Signal.weight, Request.reply?, Session.Reply.weight, rest_eq]
      omega

theorem Stands.failed (h : o.Stands es limit c r rest .opening) (hb : o.Bare c) :
    ∃ rest', o.Leads es limit c (.opened ⟨c.connections⟩ (.error (o.error ⟨c.connections⟩))) r
      .opening rest r .looking rest' := by
  cases h with
  | @opening left delays phase starts connection timer error offers rest_eq =>
    have hn : c.phase.transition .openRetryable =
        some ⟨.retryLookup, [.notifyRetrying, .requestEndpoint]⟩ := by
      rcases phase with hp | hp <;> rw [hp] <;> rfl
    have ht : (Signal.opened ⟨c.connections⟩ (.error (o.error ⟨c.connections⟩))).trigger? c =
        some .openRetryable := by
      simp [Signal.trigger?, Core.isCurrent, connection, Outage.error, ClientError.isRetryable]
    have hh := Core.handle_of_transition ht hn
    have hc : (c.handle (.opened ⟨c.connections⟩ (.error (o.error ⟨c.connections⟩)))).core =
        { c with phase := .retryLookup, connection := none, lastError := none } := by
      rw [hh]
      simp [Turn.perform, Signal.prepare, Core.recordError_eq]
    have he : (c.handle (.opened ⟨c.connections⟩ (.error (o.error ⟨c.connections⟩)))).effects =
        [.publish .retrying, .notify (.retrying (some (o.error ⟨c.connections⟩))),
          .request .lookup] := by
      rw [hh]
      simp [Turn.perform, Signal.prepare, Core.recordError_eq, Phase.view, hb.stoppedByUser, error]
    refine ⟨_, .of_turn hc he (.looking (.inr rfl) starts rfl timer rfl offers rfl) { hb with }
      rest_eq (by simp [Effect.posted]) ⟨[], rfl, rfl, rfl⟩ (by simp) ?_⟩
    simp [Effect.weight, Signal.weight, rest_eq]
    omega

theorem Stands.refused {d : Duration} (h : o.Stands es limit c r rest .looking) (hb : o.Bare c)
    (hr : r.next.1 = .wait d) : ∃ rest', o.Leads es limit c
      (.endpointAnswered (.ok (.retryAfter d))) r .looking rest r.next.2 .waiting rest' := by
  cases h with
  | @looking left delays phase starts connection timer error offers rest_eq =>
    have hn : c.phase.transition .endpointRetry =
        some ⟨.retryWait, [.notifyRetrying, .startRetryTimer]⟩ := by
      rcases phase with hp | hp <;> rw [hp] <;> rfl
    obtain ⟨delays, rfl, rfl, hoffers⟩ := offers.of_wait hr
    have hh := Core.handle_of_transition (c := c) (x := .endpointAnswered (.ok (.retryAfter d)))
      rfl hn
    have hc : (c.handle (.endpointAnswered (.ok (.retryAfter d)))).core = { c with
        phase := .retryWait, retryDelay := d, lastError := none, timers := c.timers + 1
        timer := some (c.timers + 1) } := by
      rw [hh]
      simp [Turn.perform, Signal.prepare]
    have he : (c.handle (.endpointAnswered (.ok (.retryAfter d)))).effects =
        [.publish .retrying, .notify (.retrying none), .request (.schedule (c.timers + 1) d)] := by
      rw [hh]
      simp [Turn.perform, Signal.prepare, Phase.view, timer, error]
    refine ⟨_, .of_turn hc he (.waiting rfl starts connection rfl rfl hoffers rfl) { hb with }
      rest_eq (by simp [Effect.posted]) ⟨[.lookup], rfl, rfl, ?_⟩ (by simp) ?_⟩
    · simp [Signal.lookup?, Rotation.answers, hr, Rotation.Answer.result?]
    · simp [Effect.weight, Signal.weight, Request.reply?, Session.Reply.weight, rest_eq, rounds,
        attempts]
      omega

theorem Stands.popped (h : o.Stands es limit c r rest .waiting) (hb : o.Bare c) :
    o.Leads es limit c (.timerEnded c.timers true) r .waiting rest r .looking rest := by
  cases h with
  | @waiting delays phase starts connection timer error offers rest_eq =>
    have hn : c.phase.transition .timerPopped = some ⟨.retryLookup, [.requestEndpoint]⟩ := by
      rw [phase]
      rfl
    have ht : (Signal.timerEnded c.timers true).trigger? c = some .timerPopped := by
      simp [Signal.trigger?, timer]
    have hh := Core.handle_of_transition ht hn
    have hc : (c.handle (.timerEnded c.timers true)).core =
        { c with phase := .retryLookup, timer := none } := by
      rw [hh]
      simp [Turn.perform, Signal.prepare]
    have he : (c.handle (.timerEnded c.timers true)).effects =
        [.publish .retrying, .request .lookup] := by
      rw [hh]
      simp [Turn.perform, Phase.view]
    refine .of_turn hc he (.looking (.inr rfl) starts connection rfl error offers rest_eq)
      { hb with } rfl (by simp [Effect.posted]) ⟨[], rfl, rfl, rfl⟩ (by simp) ?_
    simp [Effect.weight, Signal.weight]

variable (o) in
/-- The effect shows nothing, and asks for nothing that decides how the client gets on. -/
structure Quiet (e : Effect) : Prop where
  shows : o.shows e = false
  use? : e.use? = none
  posted : e.posted = []

section Quiet

variable {effects : List Effect}

theorem Quiet.filter_shows (h : ∀ e ∈ effects, o.Quiet e) : effects.filter o.shows = [] :=
  List.filter_eq_nil_iff.mpr fun e he => by simp [(h e he).shows]

theorem Quiet.filterMap_use? (h : ∀ e ∈ effects, o.Quiet e) :
    effects.filterMap Effect.use? = [] :=
  List.filterMap_eq_nil_iff.mpr fun e he => (h e he).use?

theorem quiet_refusal {w : Work} (hw : w.promise ≠ o.start) (cause : ClientError) :
    o.Quiet (w.refusal cause) := by
  cases w with
  | send r => exact ⟨rfl, rfl, rfl⟩
  | subscribe r | unsubscribe r => exact ⟨decide_eq_false hw, rfl, rfl⟩

theorem weight_refusal_le (w : Work) (cause : ClientError) : (w.refusal cause).weight ≤ 3 := by
  cases w <;> simp [Work.refusal, Effect.weight]

theorem weight_refusals_le (works : List Work) (cause : ClientError) :
    ((works.map (·.refusal cause)).map Effect.weight).sum ≤ 3 * works.length := by
  induction works with
  | nil => simp
  | cons w works ih =>
    have hw := weight_refusal_le w cause
    simp only [List.map_cons, List.sum_cons, List.length_cons] at ih ⊢
    omega

end Quiet

theorem Stands.exhausted {k : Nat} (h : o.Stands es limit c r rest .looking)
    (hb : o.Bare c) (hr : r.next.1 = .exhausted k) : ∃ rest', o.Leads es limit c
      (.endpointAnswered (.error (.retryLimit k))) r .looking rest r.next.2 .ending rest' := by
  cases h with
  | @looking left delays phase starts connection timer error offers rest_eq =>
    have hn : c.phase.transition .endpointFatal =
        some ⟨.stoppingFlush, [.failPendingStarts, .cleanup, .flushCallbacks]⟩ := by
      rcases phase with hp | hp <;> rw [hp] <;> rfl
    obtain ⟨rfl, rfl, rfl⟩ := offers.of_exhausted hr
    have hh := Core.handle_of_transition (c := c)
      (x := .endpointAnswered (.error (.retryLimit k))) rfl hn
    have hc : (c.handle (.endpointAnswered (.error (.retryLimit k)))).core = { c with
        phase := .stoppingFlush, lastError := some (.retryLimit k), pendingStarts := []
        subscriptions := [], remakesOutstanding := 0, outstanding := [], pendingWork := []
        confirmations := [], connection := none, timer := none } := by
      rw [hh]
      simp [Turn.perform, Signal.prepare, Core.recordError_eq, core_cleanup, hb.stoppedByUser,
        error]
    have he : (c.handle (.endpointAnswered (.error (.retryLimit k)))).effects =
        [.publish .stopping, .settle o.start (.error (.retryLimit k))] ++
          c.pendingWork.map (·.refusal .clientStopped) ++ [.takeDrain, .flush] := by
      rw [hh]
      simp [Turn.perform, Signal.prepare, Core.recordError_eq, effects_cleanup, hb.stoppedByUser,
        hb.subscriptions, hb.outstanding, error, starts, timer, Phase.view]
    have hquiet : ∀ e ∈ c.pendingWork.map (·.refusal .clientStopped), o.Quiet e := by
      intro e he
      obtain ⟨w, hw, rfl⟩ := List.mem_map.mp he
      exact quiet_refusal (hb.work w hw) _
    refine ⟨_, .of_turn hc he (.ending rfl rfl rfl rfl rfl rfl)
      { hb with outstanding := rfl, subscriptions := rfl, confirmations := rfl, work := by simp }
      ?_ ?_ ⟨[.lookup], rfl, ?_, ?_⟩ (by simp) ?_⟩
    · rw [List.filter_append, List.filter_append, Quiet.filter_shows hquiet, rest_eq]
      simp [shows, rounds, attempts]
    · simp only [List.mem_append]
      rintro e ((he | he) | he)
      · revert e
        simp [Effect.posted]
      · exact (hquiet e he).posted
      · revert e
        simp [Effect.posted]
    · rw [List.filterMap_append, List.filterMap_append, Quiet.filterMap_use? hquiet]
      rfl
    · simp [Signal.lookup?, Rotation.answers, hr, Rotation.Answer.result?]
    · have hsum := weight_refusals_le c.pendingWork .clientStopped
      simp only [List.map_append, List.sum_append]
      simp [Effect.weight, Signal.weight, rest_eq, rounds, attempts] at hsum ⊢
      omega

theorem Stands.flushed (h : o.Stands es limit c r rest .ending) (hb : o.Bare c) :
    o.Leads es limit c .flushed r .ending rest r .finished [] := by
  cases h with
  | ending phase starts connection timer error rest_eq =>
    have hn : c.phase.transition .callbacksFlushed = some ⟨.stopped,
        [.succeedPendingStops, .notifyStopped, .releaseCallbacks, .resumeStart]⟩ := by
      rw [phase]
      rfl
    have hh := Core.handle_of_transition (c := c) (x := .flushed) rfl hn
    have hc : (c.handle .flushed).core =
        { c with phase := .stopped, pendingStops := [], lastError := none } := by
      rw [hh]
      simp [Turn.perform, Signal.prepare]
    have he : (c.handle .flushed).effects =
        [.publish .stopped, .notify (.stopped (some (.retryLimit limit))), .release] := by
      rw [hh]
      simp [Turn.perform, Signal.prepare, Phase.view, hb.pendingStops, starts, error]
    refine .of_turn hc he (.finished rfl starts connection timer rfl)
      { hb with pendingStops := rfl } rest_eq (by simp [Effect.posted]) ⟨[], rfl, rfl, rfl⟩
      (by simp) ?_
    simp [Effect.weight, Signal.weight, rest_eq]
    omega

variable (o) in
/-- The turn of the signal is quiet, and at most keeps work. -/
structure Idles (c : Core) (x : Signal) : Prop where
  keeps : ∃ works, (c.handle x).core = { c with pendingWork := c.pendingWork ++ works } ∧
    (∀ w ∈ works, w.promise ≠ o.start) ∧
      ((c.handle x).effects.map Effect.weight).sum + 3 * works.length < x.weight
  quiet : ∀ e ∈ (c.handle x).effects, o.Quiet e

theorem Idles.of_begin {x : Signal} (h : c.handle x = begin c) : o.Idles c x := by
  refine ⟨⟨[], by simp [h], nofun, ?_⟩, by simp [h]⟩
  rw [h]
  cases x <;> simp [Signal.weight]

theorem Idles.of_effect {x : Signal} {e : Effect} (hc : (c.handle x).core = c)
    (he : (c.handle x).effects = [e]) (hq : o.Quiet e) (hw : e.weight < x.weight) :
    o.Idles c x := by
  refine ⟨⟨[], by simp [hc], nofun, by simpa [he] using hw⟩, ?_⟩
  rw [he]
  exact fun e' hm => List.mem_singleton.mp hm ▸ hq

/-- What steady signals are about is not there. -/
theorem Bare.idles {x : Signal} (hb : o.Bare c) (hp : c.phase ≠ .started) (hx : x.isSteady)
    (hbrings : o.Brings x) : o.Idles c x := by
  cases x with
  | work w =>
    have hw : w.promise ≠ o.start := hbrings
    cases hv : c.phase.view.work with
    | accept => exact absurd (Phase.eq_started_of_accept hv) hp
    | queue =>
      have hh : c.handle (.work w) = (begin c).keep w := by
        simp [Core.handle, Turn.handle, onWork, hv]
      refine ⟨⟨[w], by simp [hh], by simpa using hw, ?_⟩, by simp [hh]⟩
      simp [hh, Signal.weight]
    | reject =>
      have hh : c.handle (.work w) = (begin c).reject w .clientStopped := by
        simp [Core.handle, Turn.handle, onWork, hv]
      refine .of_effect (e := w.refusal .clientStopped) (by simp [hh]) (by simp [hh])
        (quiet_refusal hw _) ?_
      exact (weight_refusal_le w _).trans_lt (Nat.lt_succ_self 3)
  | sent k id result =>
    apply Idles.of_begin
    simp [Core.handle, Turn.handle, onSent, hb.outstanding]
  | subscribed k topic result =>
    apply Idles.of_begin
    simp [Core.handle, Turn.handle, onSubscribed, hb.subscriptions, Subscriptions.find?]
  | unsubscribed k topic result =>
    apply Idles.of_begin
    simp [Core.handle, Turn.handle, onUnsubscribed, hb.subscriptions, Subscriptions.find?]
  | delivered k message =>
    apply Idles.of_begin
    simp [Core.handle, Turn.handle, onDelivered, hb.subscriptions, Subscriptions.find?]
  | confirm id p =>
    have hh : c.handle (.confirm id p) = (begin c).settle (.error confirmationLost) p := by
      simp [Core.handle, Turn.handle, onConfirm, hb.confirmations]
    exact .of_effect (e := .settle p (.error confirmationLost)) (by simp [hh]) (by simp [hh])
      ⟨decide_eq_false hbrings, rfl, rfl⟩ (by simp [Effect.weight, Signal.weight])
  | autoConfirm d =>
    by_cases hk : c.isCurrent d.connection
    · have hh : c.handle (.autoConfirm d) = (begin c).request (.confirm d.connection d.tag) := by
        simp [Core.handle, Turn.handle, acknowledge, hk]
      exact .of_effect (e := .request (.confirm d.connection d.tag)) (by simp [hh])
        (by simp [hh]) ⟨rfl, rfl, rfl⟩ (by simp [Effect.weight, Signal.weight, Request.reply?])
    · apply Idles.of_begin
      simp [Core.handle, Turn.handle, acknowledge, hk]
  | _ => cases hx

/-- A signal that idles leaves the client where it stands. -/
theorem Stands.idle {x : Signal} {stage : Stage} (h : o.Stands es limit c r rest stage)
    (hb : o.Bare c) (hx : o.Idles c x) (hlookup : x.lookup? = none)
    (hstart : x ≠ .start (some o.start)) : o.Leads es limit c x r stage rest r stage rest := by
  obtain ⟨⟨works, hc, hworks, hw⟩, hquiet⟩ := hx
  refine .of_turn hc rfl ?_ { hb with work := ?_ } ?_ (fun e he => (hquiet e he).posted)
    ⟨[], rfl, ?_, ?_⟩ (iff_self_and.mpr fun _ => hstart) ?_
  · cases h with
    | ready phase starts connection timer connections timers offers rest_eq =>
      exact .ready phase starts connection timer connections timers offers rest_eq
    | looking phase starts connection timer error offers rest_eq =>
      exact .looking phase starts connection timer error offers rest_eq
    | opening phase starts connection timer error offers rest_eq =>
      exact .opening phase starts connection timer error offers rest_eq
    | waiting phase starts connection timer error offers rest_eq =>
      exact .waiting phase starts connection timer error offers rest_eq
    | ending phase starts connection timer error rest_eq =>
      exact .ending phase starts connection timer error rest_eq
    | finished phase starts connection timer rest_eq =>
      exact .finished phase starts connection timer rest_eq
  · intro w hmem
    exact (List.mem_append.mp hmem).elim (hb.work w) (hworks w)
  · rw [Quiet.filter_shows hquiet, List.nil_append]
  · rw [Quiet.filterMap_use? hquiet, List.append_nil, List.nil_append]
  · rw [hlookup]
    rfl
  · simp only [List.length_append]
    omega

theorem Stands.phase_ne_started {stage : Stage} (h : o.Stands es limit c r rest stage) :
    c.phase ≠ .started := by
  cases h with
  | ready phase | waiting phase | ending phase | finished phase =>
    rw [phase]
    decide
  | looking phase | opening phase => rcases phase with hp | hp <;> rw [hp] <;> decide

theorem Stands.connection_eq {stage : Stage} (h : o.Stands es limit c r rest stage) :
    c.connection = if stage = .opening then some ⟨c.connections⟩ else none := by
  cases h with
  | ready phase starts connection | looking phase starts connection
  | opening phase starts connection | waiting phase starts connection
  | ending phase starts connection | finished phase starts connection => simpa using connection

theorem Stands.timer_eq {stage : Stage} (h : o.Stands es limit c r rest stage) :
    c.timer = if stage = .waiting then some c.timers else none := by
  cases h with
  | ready phase starts connection timer | looking phase starts connection timer
  | opening phase starts connection timer | waiting phase starts connection timer
  | ending phase starts connection timer | finished phase starts connection timer =>
    simpa using timer

theorem Stands.transition_flushed {stage : Stage} (h : o.Stands es limit c r rest stage)
    (hs : stage ≠ .ending) : c.phase.transition .callbacksFlushed = none := by
  cases h with
  | ready phase | waiting phase | finished phase =>
    rw [phase]
    rfl
  | looking phase | opening phase => rcases phase with hp | hp <;> rw [hp] <;> rfl
  | ending => exact absurd rfl hs

theorem Stands.transition_remade {stage : Stage} (h : o.Stands es limit c r rest stage) :
    c.phase.transition .subscriptionsRemade = none := by
  cases h with
  | ready phase | waiting phase | ending phase | finished phase =>
    rw [phase]
    rfl
  | looking phase | opening phase => rcases phase with hp | hp <;> rw [hp] <;> rfl

/-- Every signal that may come leads the client on, or leaves it where it stands. -/
theorem Stands.leads {x : Signal} {stage : Stage} (h : o.Stands es limit c r rest stage)
    (hb : o.Bare c) (hx : o.Brings x) (hstart : x = .start (some o.start) → stage = .ready)
    (hlookup : ∀ result, x = .endpointAnswered result →
      some result ∈ (r.answers stage.uses).map (·.result?))
    (hclosed : ∀ k, x = .closed k → c.isCurrent k = false) :
    ∃ r' stage' rest', o.Leads es limit c x r stage rest r' stage' rest' := by
  have idle (hx : o.Idles c x) (hl : x.lookup? = none) (hs : x ≠ .start (some o.start)) :
      ∃ r' stage' rest', o.Leads es limit c x r stage rest r' stage' rest' :=
    ⟨r, stage, rest, h.idle hb hx hl hs⟩
  cases x with
  | start p =>
    obtain rfl : p = some o.start := hx
    obtain rfl := hstart rfl
    obtain ⟨rest', hl⟩ := h.start hb
    exact ⟨_, _, _, hl⟩
  | endpointAnswered result =>
    have hr := hlookup result rfl
    obtain rfl : stage = .looking := by
      cases stage <;> simp [Stage.uses, Rotation.answers] at hr
      rfl
    simp only [Stage.uses, Rotation.answers, List.map_cons, List.map_nil,
      List.mem_singleton] at hr
    cases hn : r.next.1 with
    | found e =>
      rw [hn] at hr
      obtain rfl := Option.some.inj hr
      obtain ⟨rest', hl⟩ := h.found hb hn
      exact ⟨_, _, _, hl⟩
    | wait d =>
      rw [hn] at hr
      obtain rfl := Option.some.inj hr
      obtain ⟨rest', hl⟩ := h.refused hb hn
      exact ⟨_, _, _, hl⟩
    | exhausted k =>
      rw [hn] at hr
      obtain rfl := Option.some.inj hr
      obtain ⟨rest', hl⟩ := h.exhausted hb hn
      exact ⟨_, _, _, hl⟩
    | overflow =>
      rw [hn] at hr
      cases hr
  | opened k result =>
    obtain rfl : result = .error (o.error k) := hx
    by_cases hk : c.isCurrent k
    · have hc : c.connection = some k := by simpa [Core.isCurrent] using hk
      rw [h.connection_eq, Option.ite_none_right_eq_some, Option.some.injEq] at hc
      obtain ⟨rfl, rfl⟩ := hc
      obtain ⟨rest', hl⟩ := h.failed hb
      exact ⟨_, _, _, hl⟩
    · exact idle (.of_begin (by simp [Core.handle, Turn.handle, onOpened, hk])) rfl (by simp)
  | timerEnded n popped =>
    obtain rfl : popped = true := hx
    by_cases ht : c.timer = some n
    · rw [h.timer_eq, Option.ite_none_right_eq_some, Option.some.injEq] at ht
      obtain ⟨rfl, rfl⟩ := ht
      exact ⟨_, _, _, h.popped hb⟩
    · exact idle (.of_begin (by simp [Core.handle, Turn.handle, onTimerEnded, ht])) rfl (by simp)
  | flushed =>
    by_cases hs : stage = .ending
    · subst hs
      exact ⟨_, _, _, h.flushed hb⟩
    · refine idle (.of_begin ?_) rfl (by simp)
      simp [Core.handle, Turn.handle, fire, fireWith, h.transition_flushed hs]
  | subscriptionsRemade =>
    refine idle (.of_begin ?_) rfl (by simp)
    simp [Core.handle, Turn.handle, fire, fireWith, h.transition_remade]
  | closed k =>
    refine idle (.of_begin ?_) rfl (by simp)
    simp [Core.handle, Turn.handle, onClosed, hclosed k rfl]
  | work | sent | subscribed | unsubscribed | delivered | confirm | autoConfirm =>
    exact idle (hb.idles h.phase_ne_started rfl hx) rfl (by simp)
  | stop | disconnected | callbackFailed => exact hx.elim

end Outage

end PubSub
