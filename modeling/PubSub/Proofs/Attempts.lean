import PubSub.Proofs.Connections

/-! # Attempts to connect

An attempt to connect begins with a lookup. The next connection is asked for
with the endpoint that the lookup has found, and once the connection is opened
this endpoint is the one that is reported. Whatever needs an endpoint or a
connection is done only where there is one, and a timer is started only where
none runs.
-/

namespace PubSub

open Turn

def Move.isOfLookup {ℓ : Type} : Move ℓ → Bool
  | perform (.request .lookup) | answerLookup _ => true
  | _ => false

namespace System

variable {ℓ : Type} {s s' : System ℓ} {past : List (Move ℓ)}

/-- The last lookup has no answer yet, or its answer is the last one. -/
structure LookedUp (past : List (Move ℓ)) (s : System ℓ) : Prop where
  asked : s.lookups ≠ 0 →
    ∃ earlier, past.filter Move.isOfLookup = earlier ++ [.perform (.request .lookup)]
  answered : ∀ result, .endpointAnswered result ∈ s.client.mailbox.waiting →
    ∃ earlier, past.filter Move.isOfLookup =
      earlier ++ [.perform (.request .lookup), .answerLookup result]

theorem Coherent.lookups_le (h : s.Coherent past) :
    s.lookups + (s.client.mailbox.waiting.flatMap Signal.awaited).count .lookup +
      (s.agenda.flatMap Effect.awaited).count .lookup ≤ 1 := by
  have hl := h.sound.control.lookup
  have hle : s.client.core.phase.marks.lookups ≤ 1 := by
    cases s.client.core.phase <;> decide
  simp only [due, awaited, List.count_append, List.count_replicate_self] at hl
  omega

theorem Coherent.waiting_of_lookups (h : s.Coherent past) (hl : s.lookups ≠ 0)
    (result : Except ClientError EndpointAnswer) :
    .endpointAnswered result ∉ s.client.mailbox.waiting := by
  intro hm
  have hpos : 0 < (s.client.mailbox.waiting.flatMap Signal.awaited).count .lookup :=
    List.count_pos_iff.mpr (List.mem_flatMap.mpr ⟨_, hm, List.mem_singleton_self _⟩)
  have := h.lookups_le
  omega

namespace LookedUp

theorem new (id : String) (threshold : Nat) : LookedUp [] (System.new id threshold : System ℓ) where
  asked := by simp [System.new]
  answered := by simp [System.new, Client.new, Mailbox.empty]

theorem congr (h : LookedUp past s) {m : Move ℓ} (hm : m.isOfLookup = false)
    (hl : s'.lookups = s.lookups)
    (hw : ∀ result, .endpointAnswered result ∈ s'.client.mailbox.waiting →
      .endpointAnswered result ∈ s.client.mailbox.waiting) : LookedUp (past ++ [m]) s' := by
  have hfilter : (past ++ [m]).filter Move.isOfLookup = past.filter Move.isOfLookup := by
    simp [hm]
  constructor
  · intro hne
    rw [hfilter]
    exact h.asked (hl ▸ hne)
  · intro result hr
    rw [hfilter]
    exact h.answered result (hw result hr)

/-- An answer to a lookup in the mailbox was there before, or it comes in. -/
theorem answered_before (hc : s.Coherent past) {m : Move ℓ} (hs : s.step m = some s')
    (hm : ∀ x, m ≠ .take x) {result : Except ClientError EndpointAnswer}
    (hr : .endpointAnswered result ∈ s'.client.mailbox.waiting) :
    .endpointAnswered result ∈ s.client.mailbox.waiting ∨ m = .answerLookup result := by
  rw [waiting_step hs hm, List.mem_append, List.mem_append] at hr
  rcases hr with (hr | hr) | hr
  · exact .inl hr
  · obtain ⟨result', rfl⟩ := (of_mem_brought hr).2.1 (List.mem_singleton_self _)
    cases List.mem_singleton.mp hr
    exact .inr rfl
  · cases hc.isOwn_of_performed hs hr

theorem answer (hc : s.Coherent past) (h : LookedUp past s)
    {result : Except ClientError EndpointAnswer} (hs : s.step (.answerLookup result) = some s') :
    LookedUp (past ++ [.answerLookup result]) s' := by
  have hone := hc.lookups_le
  obtain ⟨hpos, hleft⟩ : 0 < s.lookups ∧ s'.lookups = s.lookups - 1 := by
    cases step_eq_some.mp hs with
    | answerLookup hl => exact ⟨hl, rfl⟩
  obtain ⟨earlier, he⟩ := h.asked hpos.ne'
  refine ⟨fun hne => by omega, fun result' hr => ?_⟩
  have hr := (answered_before hc hs (by simp) hr).resolve_left (hc.waiting_of_lookups hpos.ne' _)
  cases hr
  exact ⟨earlier, by simp [he, Move.isOfLookup]⟩

theorem ask (hc : s.Coherent past) {e : Effect} (h : LookedUp past s)
    (hs : s.step (.perform e) = some s') : LookedUp (past ++ [.perform e]) s' := by
  have hbefore {result : Except ClientError EndpointAnswer}
      (hr : .endpointAnswered result ∈ s'.client.mailbox.waiting) :
      .endpointAnswered result ∈ s.client.mailbox.waiting :=
    (answered_before hc hs (by simp) hr).resolve_right (by simp)
  obtain ⟨rest, ha, rfl⟩ := step_perform hs
  by_cases he : e = .request .lookup
  · subst he
    refine ⟨fun _ => ⟨past.filter Move.isOfLookup, by simp [Move.isOfLookup]⟩, fun result hr => ?_⟩
    -- While the lookup waits to be asked for there is no answer to another one.
    have hpos : 0 < (s.client.mailbox.waiting.flatMap Signal.awaited).count .lookup :=
      List.count_pos_iff.mpr (List.mem_flatMap.mpr ⟨_, hbefore hr, List.mem_singleton_self _⟩)
    have hone := hc.lookups_le
    rw [ha, List.flatMap_cons, List.count_append] at hone
    simp only [Effect.awaited, List.count_singleton_self] at hone
    omega
  · refine h.congr ?_ (by simp [System.perform, he]) fun _ => hbefore
    cases e with
    | request r => cases r <;> first | rfl | exact absurd rfl he
    | _ => rfl

theorem move (hc : s.Coherent past) (h : LookedUp past s) {m : Move ℓ} (hs : s.step m = some s') :
    LookedUp (past ++ [m]) s' := by
  cases step_eq_some.mp hs with
  | answerLookup => exact h.answer hc hs
  | perform => exact h.ask hc hs
  | take _ hw => exact h.congr rfl rfl fun _ hr => hw ▸ List.mem_cons_of_mem _ hr
  | _ =>
    exact h.congr rfl rfl fun _ hr =>
      (answered_before hc hs (by simp) hr).resolve_right (by simp)

end LookedUp

end System

theorem Reached.lookedUp {ℓ : Type} {past : List (Move ℓ)} {s : System ℓ} (h : Reached past s) :
    s.LookedUp past := by
  refine h.induction (fun id threshold => .new id threshold) ?_
  intro past s m s' hr ih hs
  exact ih.move hr.coherent hs

def Turn.IsReadyFor (t : Turn) : Action → Prop
  | .openConnection => t.core.endpoint.isSome
  | .closeConnection | .remakeSubscriptions => t.core.connection.isSome
  | .startRetryTimer => t.core.timer = none
  | _ => True

/-- The work is done at this moment of the turn of the signal; the turn ends with other work. -/
def Core.Does (c : Core) (x : Signal) (w : Work) (t : Turn) : Prop :=
  ∃ rest, c.handle x = (t.onWork w).replay rest

section Timer

def Action.timed (set : Bool) : Action → Bool
  | startRetryTimer => true
  | cleanup => false
  | _ => set

/-- Where the table of the transitions lets a timer be set, the phase waits for one. -/
theorem Phase.isTimed_of_timed {p next : Phase} {trigger : Trigger} {actions : List Action}
    (h : p.transition trigger = some ⟨next, actions⟩)
    (ht : actions.foldl Action.timed
      (p.isTimed && trigger ≠ .timerPopped && trigger ≠ .timerCancelled) = true) :
    next.isTimed := by
  have hall : ∀ (p : Phase) (trigger : Trigger), ∀ n ∈ p.transition trigger,
      n.actions.foldl Action.timed
        (p.isTimed && trigger ≠ .timerPopped && trigger ≠ .timerCancelled) = true →
        n.next.isTimed := by decide
  exact hall _ _ _ h ht

/-- A timer is started in one kind of transition only, and only where none is set. -/
theorem Phase.eq_of_startRetryTimer {p next : Phase} {trigger : Trigger}
    {before after : List Action}
    (h : p.transition trigger = some ⟨next, before ++ .startRetryTimer :: after⟩) :
    before = [.notifyRetrying] ∧ trigger = .endpointRetry ∧ p.isTimed = false := by
  have hall : ∀ (p : Phase) (trigger : Trigger), ∀ n ∈ p.transition trigger,
      .startRetryTimer ∈ n.actions →
        n.actions = [.notifyRetrying, .startRetryTimer] ∧ trigger = .endpointRetry ∧
        p.isTimed = false := by decide
  obtain ⟨ha, ht, hp⟩ := hall _ _ _ h (by simp)
  refine ⟨?_, ht, hp⟩
  rcases before with _ | ⟨a, _ | ⟨b, before⟩⟩
  · simp at ha
  · cases ha
    rfl
  · simp at ha

theorem Course.timed_of_foldl_act {c : Course} {actions : List Action} {set : Bool}
    (hs : (actions.foldl act c).timer.isSome) (ht : c.timer.isSome → set) :
    actions.foldl Action.timed set = true := by
  induction actions generalizing c set with
  | nil => exact ht hs
  | cons a actions ih =>
    refine ih hs fun h => ?_
    cases a with
    | startRetryTimer => rfl
    | cleanup => cases h
    | _ => exact ht h

namespace Turn

variable {m m' : Marks} {env : Awaited → Nat} {t : Turn} {set : Bool}

theorem timed_performAll (hc : Control m t.core.course (t.due env)) {actions : List Action}
    (ha : actions.foldlM Marks.act m = some m') (ht : t.core.timer.isSome → set)
    (closed : Turn → Turn) (hs : (actions.foldl (perform closed) t).core.timer.isSome) :
    actions.foldl Action.timed set = true := by
  have htimer : (actions.foldl (perform closed) t).core.timer =
      (actions.foldl Course.act t.core.course).timer :=
    congrArg Course.timer (hc.course_performAll ha closed)
  rw [htimer] at hs
  exact Course.timed_of_foldl_act hs ht

end Turn

theorem Signal.timer_prepare {x : Signal} {c : Core} {trigger : Trigger}
    (ht : x.trigger? c = some trigger) (hs : (x.prepare c).timer.isSome) :
    c.timer.isSome ∧ trigger ≠ .timerPopped ∧ trigger ≠ .timerCancelled := by
  cases trigger?_eq_some_iff.mp ht with
  | timerPopped | timerCancelled => cases hs
  | _ => exact ⟨by simpa [prepare, Core.recordError_eq] using hs, by decide, by decide⟩

theorem Handles.timed {c : Core} {env : Awaited → Nat} {x : Signal} (h : Handles c env x)
    (hc : c.timer.isSome → c.phase.isTimed) :
    (c.handle x).core.timer.isSome → (c.handle x).core.phase.isTimed := by
  cases h with
  | steady hx stays =>
    have ht : (c.handle x).core.timer = c.timer := congrArg Course.timer stays.course
    have hp : (c.handle x).core.phase = c.phase := congrArg Course.phase stays.course
    rw [ht, hp]
    exact hc
  | passed hx hnone _ f hf heq =>
    rw [heq, core_update, core_begin]
    rcases hf with rfl | ⟨rfl, hsome⟩
    · exact hc
    · obtain ⟨trigger, ht⟩ := Option.isSome_iff_exists.mp hsome
      rw [Signal.phase_prepare]
      exact fun hs => hc (Signal.timer_prepare ht hs).1
  | @fires trigger next actions m m' hx ht hn hm hcontrol ha hle heq =>
    rw [heq, (hcontrol.performAll ha fireClosed).2]
    intro hs
    refine Phase.isTimed_of_timed hn (timed_performAll hcontrol ha ?_ fireClosed hs)
    intro hs
    obtain ⟨hs, hpopped, hcancelled⟩ := Signal.timer_prepare ht hs
    simp [hc hs, hpopped, hcancelled]

end Timer

theorem Reached.timed {ℓ : Type} {past : List (Move ℓ)} {s : System ℓ} (h : Reached past s) :
    s.client.core.timer.isSome → s.client.core.phase.isTimed := by
  refine h.turn_induction
    (P := fun past s => s.client.core.timer.isSome → s.client.core.phase.isTimed)
    (fun _ _ => by simp [System.new, Client.new]) (fun _ ih hs hm => System.core_step hs hm ▸ ih) ?_
  intro past s x s' hr ih hs
  rw [System.core_take hs]
  exact (hr.handles hs).timed ih

/-- What is performed in a turn is performed by a client that is ready for it. -/
theorem Handles.isReadyFor {c : Core} {env : Awaited → Nat} {x : Signal} (h : Handles c env x)
    (hc : c.timer.isSome → c.phase.isTimed) {a : Action} {t : Turn} (hp : c.Performs x a t) :
    t.IsReadyFor a := by
  obtain ⟨m, m', hcontrol, ha, -⟩ := h.performs hp
  cases a with
  | openConnection =>
    simp only [Marks.act, Option.ite_none_right_eq_some] at ha
    exact hcontrol.endpoint ha.1.1
  | closeConnection | remakeSubscriptions =>
    simp only [Marks.act, Option.ite_none_right_eq_some] at ha
    have hconnected : m.connected := by
      first | exact ha.1.1 | exact ha.1
    rw [Turn.IsReadyFor, hcontrol.connection_of_connected hconnected]
    rfl
  | startRetryTimer =>
    obtain ⟨trigger, next, before, after, ht, hn, rfl⟩ := hp
    obtain ⟨rfl, rfl, hphase⟩ := Phase.eq_of_startRetryTimer hn
    have hnone : ¬ (x.prepare c).timer.isSome := fun hs => by
      have hs := hc (Signal.timer_prepare ht hs).1
      rw [hphase] at hs
      cases hs
    simpa [Turn.IsReadyFor, perform] using hnone
  | _ => trivial

structure System.ConnectsOnce {ℓ : Type} (past : List (Move ℓ)) (s : System ℓ) : Prop where
  connected : s.client.core.connection.isSome ↔ s.client.core.phase ∈
    [.startingOpen, .retryOpen, .reconnectOpen, .started, .remaking, .stoppingOpen,
      .stoppingRemake, .stoppingClose]
  /-- A connection is asked for under a new number when those before it are over. -/
  fresh : ∀ before k e later, past = before ++ .perform (.request (.connect k e)) :: later →
    ∀ j e', .perform (.request (.connect j e')) ∈ before → j.number < k.number ∧ Ended before j
  /-- It is asked for in the turn of the answer to the last lookup. -/
  found : ∀ before k e later, past = before ++ .perform (.request (.connect k e)) :: later →
    ∃ earlier rest, before = earlier ++ .take (.endpointAnswered (.ok (.found e))) :: rest ∧
      (∀ x, .take x ∉ rest) ∧ ∃ attempts, earlier.filter Move.isOfLookup =
        attempts ++ [.perform (.request .lookup), .answerLookup (.ok (.found e))]
  /-- Its endpoint is reported in the turn in which it is opened. -/
  reported : ∀ before e later, past = before ++ .perform (.request (.report e)) :: later →
    ∃ k earlier rest, before = earlier ++ .take (.opened k (.ok ())) :: rest ∧
      (∀ x, .take x ∉ rest) ∧ .perform (.request (.connect k e)) ∈ earlier
  ready : ∀ x s', s.step (.take x) = some s' → ∀ a t, s.client.core.Performs x a t →
    t.IsReadyFor a
  working : ∀ x s', s.step (.take x) = some s' → ∀ w t, s.client.core.Does x w t →
    t.core.phase.view.work = .accept → t.core.connection.isSome

namespace Reached

variable {ℓ : Type} {s : System ℓ} {past before later : List (Move ℓ)} {k : ConnectionId}
  {e : Endpoint}

theorem isSome_connection_iff (h : Reached past s) :
    s.client.core.connection.isSome ↔ s.client.core.phase.isConnected := by
  have hk : s.client.core.connection = _ := h.coherent.sound.control.connection
  rw [hk]
  simp [Phase.marks]

theorem connect_turn (h : Reached (before ++ .perform (.request (.connect k e)) :: later) s) :
    ∃ earlier rest u v, before = earlier ++ .take (.endpointAnswered (.ok (.found e))) :: rest ∧
      (∀ x, .take x ∉ rest) ∧ Reached earlier u ∧
      u.step (.take (.endpointAnswered (.ok (.found e)))) = some v ∧
      u.client.core.connection = none ∧ u.client.core.connections < k.number ∧
      ∀ j e', .perform (.request (.connect j e')) ∉ rest := by
  obtain ⟨earlier, x, rest, more, u, v, rfl, hrest, hu, hx, he⟩ := h.of_perform
  obtain ⟨hd, hown⟩ := hu.coherent.beside_take hx
  have hhandles := hu.coherent.sound.handles hd fun hl => (hown hl).1
  obtain ⟨rfl, hphase, rfl, hconnects, -⟩ :=
    hhandles.connect (k := k) (e := e) (by rw [he]; simp)
  refine ⟨earlier, rest, u, v, rfl, hrest, hu, hx, ?_, Nat.lt_succ_self _, fun j e' hj => ?_⟩
  · rw [← Option.not_isSome_iff_eq_none, hu.isSome_connection_iff, hphase]
    simp
  · -- The turn asks for one connection only.
    rw [he, List.filterMap_append, List.filterMap_cons] at hconnects
    have hnil : (rest.flatMap Move.performed).filterMap Effect.connect? = [] := by
      have hlength := congrArg List.length hconnects
      simp only [Effect.connect?, List.length_append, List.length_cons, List.length_nil]
        at hlength
      exact List.eq_nil_of_length_eq_zero (by omega)
    have hmem : (j, e') ∈ (rest.flatMap Move.performed).filterMap Effect.connect? :=
      List.mem_filterMap.mpr ⟨_, mem_performed.mpr hj, rfl⟩
    rw [hnil] at hmem
    cases hmem

theorem ended_of_connect (h : Reached (before ++ .perform (.request (.connect k e)) :: later) s)
    {j : ConnectionId} {e' : Endpoint} (hj : .perform (.request (.connect j e')) ∈ before) :
    j.number < k.number ∧ Ended before j := by
  obtain ⟨earlier, rest, u, v, rfl, -, hu, -, hnone, hlt, hrest⟩ := h.connect_turn
  have hj : .perform (.request (.connect j e')) ∈ earlier := by
    rw [List.mem_append, List.mem_cons] at hj
    rcases hj with hj | hj | hj
    · exact hj
    · cases hj
    · exact absurd hj (hrest j e')
  have hissued : .request (.connect j e') ∈ u.issued earlier :=
    List.mem_append_left _ (mem_performed.mpr hj)
  refine ⟨(hu.opened.bounded j e' hissued).trans_lt hlt, During.append ?_⟩
  refine (hu.opened.ended j e' hissued).resolve_left ?_
  rw [hnone]
  exact nofun

theorem connects_once (h : Reached past s) : s.ConnectsOnce past := by
  constructor
  · rw [h.isSome_connection_iff]
    cases s.client.core.phase <;> decide
  · rintro before k e later rfl j e' hj
    exact h.ended_of_connect hj
  · rintro before k e later rfl
    obtain ⟨earlier, rest, u, v, hbefore, hrest, hu, hx, -⟩ := h.connect_turn
    obtain ⟨-, waiting, hw, -⟩ := System.step_take hx
    exact ⟨earlier, rest, hbefore, hrest, hu.lookedUp.answered _ (hw ▸ List.mem_cons_self ..)⟩
  · rintro before e later rfl
    obtain ⟨earlier, x, rest, more, u, v, hbefore, hrest, hu, hx, he⟩ := h.of_perform
    obtain ⟨hd, hown⟩ := hu.coherent.beside_take hx
    have hhandles := hu.coherent.sound.handles hd fun hl => (hown hl).1
    obtain ⟨k, rfl, hk, hendpoint⟩ := hhandles.report (e := e) (by rw [he]; simp)
    obtain ⟨e', hissued, he'⟩ := hu.opened.current k hk
    obtain rfl : e = e' := Option.some.inj (hendpoint.symm.trans he')
    refine ⟨k, earlier, rest, hbefore, hrest, ?_⟩
    rw [System.issued, (System.step_take hx).1, List.append_nil] at hissued
    exact mem_performed.mp hissued
  · intro x s' hs a t hp
    obtain ⟨hd, hown⟩ := h.coherent.beside_take hs
    exact (h.coherent.sound.handles hd fun hl => (hown hl).1).isReadyFor h.timed hp
  · rintro x s' hs w t ⟨rest, he⟩ hw
    -- Doing work leaves the phase and the connection as they will be after the turn.
    have hstays : t.Stays (s.client.core.handle x) := by
      rw [he]
      exact (stays_onWork t w).trans (frame_replay _ apart_courseView rest)
    have hphase : (s.client.core.handle x).core.phase = t.core.phase :=
      congrArg Course.phase hstays.course
    have hconnection : (s.client.core.handle x).core.connection = t.core.connection :=
      congrArg Course.connection hstays.course
    have hafter := (h.step hs).isSome_connection_iff
    obtain ⟨-, rest', -, rfl⟩ := System.step_take hs
    simp only [System.begin, hphase, hconnection] at hafter
    rw [hafter]
    revert hw
    cases t.core.phase <;> decide

def otherEndpoint : Endpoint := { (default : Endpoint) with port := 5671 }

/-- A run in which the first connection is refused and the second one is about to be open. -/
def refuseFirst : List (Move Unit) :=
  [.call .stopped .start 0, .take (.start (some 0)), .perform (.publish .starting),
    .perform (.notify .starting), .perform (.request .lookup),
    .answerLookup (.ok (.found default)), .take (.endpointAnswered (.ok (.found default))),
    .perform (.publish .starting), .perform (.request (.connect ⟨1⟩ default)),
    .answer (.opened ⟨1⟩) (.error (.network "refused")),
    .take (.opened ⟨1⟩ (.error (.network "refused"))), .perform (.publish .retrying),
    .perform (.notify (.retrying (some (.network "refused")))), .perform (.request .lookup),
    .answerLookup (.ok (.found otherEndpoint)),
    .take (.endpointAnswered (.ok (.found otherEndpoint))), .perform (.publish .retrying),
    .perform (.request (.connect ⟨2⟩ otherEndpoint)),
    .answer (.opened ⟨2⟩) (.ok ())]

set_option maxRecDepth 8000 in
theorem connects_once_refuseFirst :
    ∃ s s', Reached refuseFirst s ∧ s.step (.take (.opened ⟨2⟩ (.ok ()))) = some s' ∧
      s'.agenda = [.publish .started, .request (.report otherEndpoint), .settle 0 (.ok ()),
        .notify .started] ∧
      s.ConnectsOnce refuseFirst := by
  have hr : ∃ s, (System.new "" 1).run refuseFirst = some s ∧
      ∃ s', s.step (.take (.opened ⟨2⟩ (.ok ()))) = some s' ∧
        s'.agenda = [.publish .started, .request (.report otherEndpoint), .settle 0 (.ok ()),
          .notify .started] := ⟨_, rfl, _, rfl, rfl⟩
  obtain ⟨s, hs, s', hs', ha⟩ := hr
  exact ⟨s, s', ⟨"", 1, hs⟩, hs', ha, connects_once ⟨"", 1, hs⟩⟩

end Reached

end PubSub
