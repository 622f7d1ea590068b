import PubSub.Proofs.Attempts
import PubSub.Proofs.Sends

/-! # The order of sends

While a client has no connection up, sends wait in the order in which they were
handled, with those that a lost connection has brought back in front. The next
connection that is up takes all of them in this order before it takes new ones.
So on every connection sends are passed in the order in which they were handled.
-/

namespace PubSub

open Turn

namespace Phase

variable {p next : Phase} {trigger : Trigger} {actions : List Action}

/-- The client is about to have a connection up and keeps work until then. -/
def isConnecting (p : Phase) : Bool := p.view.work = .queue

/-- Kept work is done again on the connection that is there when the transition begins. -/
theorem replaying (h : p.transition trigger = some ⟨next, actions⟩)
    (ha : .replayPendingWork ∈ actions) :
    p.isConnecting ∧ trigger.disconnects = false ∧ ∀ a ∈ actions, a.connects = false := by
  have hall : ∀ (p : Phase) (trigger : Trigger), ∀ n ∈ p.transition trigger,
      .replayPendingWork ∈ n.actions → p.isConnecting ∧ trigger.disconnects = false ∧
        ∀ a ∈ n.actions, a.connects = false := by decide
  exact hall _ _ _ h ha

theorem connecting (h : p.transition trigger = some ⟨next, actions⟩) (hp : p.isConnecting = false)
    (hn : next.isConnecting) : next.isConnected = false ∧
      (p = stopped ∨ .breakConnection ∈ actions ∧ .replayPendingWork ∉ actions) := by
  have hall : ∀ (p : Phase) (trigger : Trigger), ∀ n ∈ p.transition trigger,
      p.isConnecting = false ∧ n.next.isConnecting → n.next.isConnected = false ∧
        (p = stopped ∨ .breakConnection ∈ n.actions ∧ .replayPendingWork ∉ n.actions) := by decide
  exact hall _ _ _ h ⟨hp, hn⟩

theorem next_of_cleanup (h : p.transition trigger = some ⟨next, actions⟩)
    (ha : .cleanup ∈ actions) : next = stoppingFlush := by
  have hall : ∀ (p : Phase) (trigger : Trigger), ∀ n ∈ p.transition trigger,
      .cleanup ∈ n.actions → n.next = stoppingFlush := by decide
  exact hall _ _ _ h ha

theorem isLookup_of_disconnects (hs : p.marks.spend trigger ≠ none) (ht : trigger.disconnects) :
    ∃ n ∈ p.transition trigger, n.next.isConnecting → n.next.isLookup := by
  revert p trigger
  decide

theorem isLookup_next (h : p.transition trigger = some ⟨next, actions⟩) (hp : p.isLookup)
    (ht : trigger ∉ [.endpointFound, .endpointRetry, .endpointFatal]) (hn : next.isConnecting) :
    next.isLookup := by
  have hall : ∀ (p : Phase) (trigger : Trigger), ∀ n ∈ p.transition trigger,
      p.isLookup → trigger ∉ [.endpointFound, .endpointRetry, .endpointFatal] →
        n.next.isConnecting → n.next.isLookup := by decide
  exact hall _ _ _ h hp ht hn

theorem ne_started_of_isLookup (h : p.transition trigger = some ⟨next, actions⟩)
    (hp : p.isLookup) : next ≠ started := by
  have hall : ∀ (p : Phase) (trigger : Trigger), ∀ n ∈ p.transition trigger,
      p.isLookup → n.next ≠ started := by decide
  exact hall _ _ _ h hp

end Phase

namespace Turn

variable {m m' : Marks} {due env : Awaited → Nat} {t : Turn}

theorem outstanding_perform (hc : Control m t.core.course due) {a : Action}
    (ha : m.act a = some m') (hr : a ≠ .replayPendingWork) (closed : Turn → Turn) :
    (t.perform closed a).core.outstanding =
      if a = .breakConnection ∨ a = .cleanup then [] else t.core.outstanding := by
  cases a with
  | openConnection => simp only [perform, connect]; split <;> rfl
  | closeConnection =>
    rw [hc.perform_closeConnection ha]
    rfl
  | remakeSubscriptions =>
    simp only [Marks.act, Option.ite_none_right_eq_some] at ha
    rw [perform, (remake_of_connection t (hc.connection_of_connected ha.1.1)).1]
    rfl
  | replayPendingWork => exact absurd rfl hr
  | _ => simp [perform, core_cleanup, core_breakConnection]

theorem outstanding_performAll (hc : Control m t.core.course (t.due env)) {actions : List Action}
    (ha : actions.foldlM Marks.act m = some m') (hr : .replayPendingWork ∉ actions)
    (hb : t.core.outstanding = [] ∨ .breakConnection ∈ actions) (closed : Turn → Turn) :
    (actions.foldl (perform closed) t).core.outstanding = [] := by
  induction actions generalizing m t with
  | nil => exact hb.resolve_right List.not_mem_nil
  | cons a actions ih =>
    obtain ⟨m₁, ha₁, ha⟩ := Option.bind_eq_some_iff.mp ha
    have hout := outstanding_perform hc ha₁ (fun h => hr (h ▸ List.mem_cons_self ..)) closed
    refine ih (hc.perform ha₁ closed) ha (fun h => hr (List.mem_cons_of_mem _ h)) ?_
    rw [hout]
    rcases hb with hb | hb
    · exact .inl (by simp [hb])
    · exact (List.mem_cons.mp hb).imp (fun he => by simp [← he]) id

end Turn

theorem Signal.lookup_of_trigger {x : Signal} {c : Core} {trigger : Trigger}
    (ht : x.trigger? c = some trigger)
    (hm : trigger ∈ [.endpointFound, .endpointRetry, .endpointFatal]) : .lookup ∈ x.awaited := by
  cases trigger?_eq_some_iff.mp ht with
  | endpointFound | endpointRetry | endpointFatal => exact List.mem_singleton_self _
  | _ => simp at hm

namespace Handles

variable {c : Core} {env : Awaited → Nat} {x : Signal} {t : Turn}

/-- Kept work is done again by a connecting client whose connection gets up. -/
theorem replays (h : Handles c env x) (hp : c.Performs x .replayPendingWork t) :
    c.phase.isConnecting ∧ (c.handle x).core.phase = .started ∧
      t.core.connection = c.connection ∧ (c.handle x).core.connection = c.connection := by
  obtain ⟨trigger, next, before, after, ht, hn, rfl⟩ := hp
  obtain ⟨m, m', hm, hc, ha⟩ := h.control_of_transition ht hn
  obtain ⟨hconnecting, hd, hk⟩ := Phase.replaying hn (by simp)
  have hprepare : (c.entering x next).core.connection = c.connection := by
    rw [Core.core_entering]
    exact Signal.connection_prepare ht hd
  have hbefore := ha
  rw [List.foldlM_append] at hbefore
  obtain ⟨m₁, hbefore, -⟩ := Option.bind_eq_some_iff.mp hbefore
  have hstarted := Phase.next_of_replayPendingWork hn (by simp)
  rw [Core.handle_of_transition ht hn]
  refine ⟨hconnecting, (hc.performAll ha fireClosed).2.trans hstarted, ?_, ?_⟩
  · rw [connection_performAll hc hbefore fun a hm => hk a (List.mem_append_left _ hm), hprepare]
  · rw [connection_performAll hc ha hk, hprepare]

theorem eq_stoppingFlush_of_cleanup (h : Handles c env x) (hp : c.Performs x .cleanup t) :
    (c.handle x).core.phase = .stoppingFlush := by
  obtain ⟨trigger, next, before, after, ht, hn, -⟩ := hp
  rw [h.phase_of_transition ht hn]
  exact Phase.next_of_cleanup hn (by simp)

theorem outstanding_of_connecting (h : Handles c env x) (hp : c.phase.isConnecting = false)
    (hn : (c.handle x).core.phase.isConnecting) :
    (c.handle x).core.phase.isConnected = false ∧
      (c.phase = .stopped ∨ (c.handle x).core.outstanding = []) := by
  rcases h.phase_cases with hphase | ⟨trigger, next, actions, ht, htransition, hphase⟩
  · rw [hphase, hp] at hn
    cases hn
  · rw [hphase] at hn ⊢
    obtain ⟨hconnected, hbegins⟩ := Phase.connecting htransition hp hn
    refine ⟨hconnected, hbegins.imp id fun ⟨hbreak, hreplay⟩ => ?_⟩
    obtain ⟨m, m', -, hc, ha⟩ := h.control_of_transition ht htransition
    rw [Core.handle_of_transition ht htransition]
    exact outstanding_performAll hc ha hreplay (.inr hbreak) fireClosed

theorem isLookup_of_ends (h : Handles c env x) {k : ConnectionId} (hk : Ends k c x)
    (hn : (c.handle x).core.phase.isConnecting) : (c.handle x).core.phase.isLookup := by
  obtain ⟨trigger, ht, hd⟩ := hk.trigger
  obtain ⟨⟨next, actions⟩, htransition, hlookup⟩ := Phase.isLookup_of_disconnects (h.spend ht) hd
  rw [h.phase_of_transition ht htransition] at hn ⊢
  exact hlookup hn

/-- A client that looks for an endpoint does so until it is given an answer. -/
theorem isLookup_of_isLookup (h : Handles c env x) (hp : c.phase.isLookup)
    (hx : .lookup ∉ x.awaited) (hn : (c.handle x).core.phase.isConnecting) :
    (c.handle x).core.phase.isLookup := by
  rcases h.phase_cases with hphase | ⟨trigger, next, actions, ht, htransition, hphase⟩
  · rwa [hphase]
  · rw [hphase] at hn ⊢
    refine Phase.isLookup_next htransition hp (fun hm => hx ?_) hn
    exact Signal.lookup_of_trigger ht hm

theorem ne_started_of_isLookup (h : Handles c env x) (hp : c.phase.isLookup) :
    (c.handle x).core.phase ≠ .started := by
  rcases h.phase_cases with hphase | ⟨trigger, next, actions, ht, htransition, hphase⟩
  · rw [hphase]
    rintro he
    rw [he] at hp
    cases hp
  · rw [hphase]
    exact Phase.ne_started_of_isLookup htransition hp

end Handles

namespace OutstandingSend

variable {k : ConnectionId} {n : Nat} {rs : List SendRequest} {send : OutstandingSend}

theorem connection_of_mem_batch (h : send ∈ batch k n rs) : send.connection = k := by
  induction rs generalizing n with
  | nil => cases h
  | cons r rs ih =>
    rcases List.mem_cons.mp h with rfl | h
    · rfl
    · exact ih h

end OutstandingSend

namespace Traffic

variable {d d' : Traffic} {k : ConnectionId} {new : List OutstandingSend}

/-- The sends that were passed to the transport on a connection, in order. -/
def sentOn (d : Traffic) (k : ConnectionId) : List SendRequest :=
  (d.attempts.filter (·.connection = k)).map (·.request)

theorem sentOn_of_same (ha : d'.attempts = d.attempts) : d'.sentOn k = d.sentOn k := by
  rw [sentOn, ha, sentOn]

theorem sentOn_of_batch {j : ConnectionId} {n : Nat} {rs : List SendRequest}
    (ha : d'.attempts = d.attempts ++ OutstandingSend.batch j n rs) :
    d'.sentOn k = d.sentOn k ++ if j = k then rs else [] := by
  rw [sentOn, ha, List.filter_append, List.map_append, ← sentOn]
  congr 1
  split
  · next hj =>
    rw [List.filter_eq_self.mpr, OutstandingSend.request_batch]
    exact fun send hs => decide_eq_true ((OutstandingSend.connection_of_mem_batch hs).trans hj)
  · next hj =>
    rw [List.map_eq_nil_iff, List.filter_eq_nil_iff]
    exact fun send hs => by simpa [OutstandingSend.connection_of_mem_batch hs] using hj

end Traffic

inductive Passes (c : Core) (x : Signal) (d : Traffic) : List OutstandingSend → Prop
  | nothing : Passes c x d []
  /-- A started client passes a new send. -/
  | new {r : SendRequest} {k : ConnectionId} (hx : x = .work (.send r))
    (started : c.phase = .started) (current : c.connection = some k) :
    Passes c x d (OutstandingSend.batch k d.sends [r])
  /-- A client that gets started passes what is kept. -/
  | kept {k : ConnectionId} {t : Turn} (performs : c.Performs x .replayPendingWork t)
    (current : t.core.connection = some k) :
    Passes c x d (OutstandingSend.batch k d.sends d.kept)

namespace Passes

variable {c : Core} {env : Awaited → Nat} {x : Signal} {d : Traffic} {new : List OutstandingSend}

theorem connection (h : Passes c x d new) (hh : Handles c env x) {send : OutstandingSend}
    (hs : send ∈ new) : c.connection = some send.connection := by
  cases h with
  | nothing => cases hs
  | new hx started current => rw [current, OutstandingSend.connection_of_mem_batch hs]
  | kept performs current =>
    rw [← (hh.replays performs).2.2.1, current, OutstandingSend.connection_of_mem_batch hs]

theorem eq_nil (h : Passes c x d new) (hh : Handles c env x)
    (hn : (c.handle x).core.phase.isConnecting) : new = [] := by
  cases h with
  | nothing => rfl
  | new hx started current =>
    have hphase : (c.handle x).core.phase = .started := by
      rw [hx]
      exact (phase_onWork (begin c) _).trans started
    rw [hphase] at hn
    cases hn
  | kept performs current =>
    rw [(hh.replays performs).2.1] at hn
    cases hn

end Passes

namespace Carries

variable {c : Core} {env : Awaited → Nat} {x : Signal} {d d' : Traffic}
  {given : List SendRequest} {r : SendRequest}

theorem passes_attempts (h : Carries c x d d') :
    ∃ new, d'.attempts = d.attempts ++ new ∧ Passes c x d new := by
  cases h with
  | passes hx policy current =>
    exact ⟨_, rfl, .new hx (Phase.eq_started_of_accept policy) current⟩
  | resumes performs current => exact ⟨_, rfl, .kept performs current⟩
  | _ => exact ⟨[], (List.append_nil _).symm, .nothing⟩

theorem attempts_of_isConnecting (h : Carries c x d d') (hh : Handles c env x)
    (hn : (c.handle x).core.phase.isConnecting) : d'.attempts = d.attempts := by
  obtain ⟨new, ha, hpasses⟩ := h.passes_attempts
  rw [ha, hpasses.eq_nil hh hn, List.append_nil]

/-- The unanswered sends and the kept ones stay in the order of handling. -/
theorem inOrder (h : Carries c x d d')
    (hw : (d.outstanding.map (·.request) ++ d.kept).Sublist given)
    (hkept : c.phase = .started → d.kept = []) :
    (d'.outstanding.map (·.request) ++ d'.kept).Sublist (given ++ x.send?.toList) := by
  have hgiven := hw.trans (List.sublist_append_left given x.send?.toList)
  cases h with
  | leaves | refuses => exact hgiven
  | keeps hx =>
    subst hx
    rw [Traffic.keep, ← List.append_assoc]
    exact hw.append (.refl _)
  | passes hx policy current =>
    subst hx
    rw [hkept (Phase.eq_started_of_accept policy), List.append_nil] at hw
    simp only [Traffic.pass, List.map_append, OutstandingSend.request_batch,
      hkept (Phase.eq_started_of_accept policy), List.append_nil]
    exact hw.append (.refl _)
  | answers hx found final =>
    exact ((List.filter_sublist.map _).append (.refl _)).trans hgiven
  | interrupts hx =>
    -- What comes back is put in front of what is kept.
    simp only [Traffic.interrupt, List.map_nil, List.nil_append]
    exact ((List.filter_sublist.map _).append (.refl _)).trans hgiven
  | closes | interruptsAndCloses => exact List.nil_sublist _
  | resumes performs current => simpa [Traffic.resume, Traffic.pass] using hgiven

theorem sentOn (h : Carries c x d d') (hh : Handles c env x)
    (hw : (d.outstanding.map (·.request) ++ d.kept).Sublist given) {k : ConnectionId}
    (hs : (d.sentOn k).Sublist given)
    (hfresh : c.phase.isConnecting → c.connection = some k → d.sentOn k = []) :
    (d'.sentOn k).Sublist (given ++ x.send?.toList) := by
  have hgiven := hs.trans (List.sublist_append_left given x.send?.toList)
  obtain ⟨new, ha, hpasses⟩ := h.passes_attempts
  cases hpasses with
  | nothing =>
    rw [List.append_nil] at ha
    rwa [Traffic.sentOn_of_same ha]
  | new hx started current =>
    rw [Traffic.sentOn_of_batch ha, hx]
    exact hs.append (by split <;> simp [Signal.send?, Work.send?])
  | kept performs current =>
    rw [Traffic.sentOn_of_batch ha]
    split
    · next hk =>
      obtain ⟨hconnecting, -, hcurrent, -⟩ := hh.replays performs
      rw [hfresh hconnecting (hcurrent ▸ hk ▸ current), List.nil_append]
      exact ((List.sublist_append_right ..).trans hw).trans (List.sublist_append_left ..)
    · rwa [List.append_nil]

theorem outstanding_nil (h : Carries c x d d') (hd : d.outstanding = [])
    (ha : d'.attempts = d.attempts) : d'.outstanding = [] := by
  cases h with
  | passes hx policy current => simp [Traffic.pass, OutstandingSend.batch] at ha
  | resumes performs current =>
    have hnil : OutstandingSend.batch _ d.sends d.kept = [] := List.append_right_eq_self.mp ha
    simp [Traffic.resume, Traffic.pass, hd, hnil]
  | answers hx found final => simp [hd] at found
  | interrupts | closes | interruptsAndCloses => rfl
  | _ => exact hd

theorem kept_cases (h : Carries c x d d') (hr : r ∈ d.kept) :
    r ∈ d'.kept ∨ (∃ t, c.Performs x .cleanup t) ∨
      ∃ k t, c.Performs x .replayPendingWork t ∧ t.core.connection = some k ∧ r ∈ d'.sentOn k := by
  cases h with
  | keeps hx => exact .inl (List.mem_append_left _ hr)
  | interrupts hx => exact .inl (List.mem_append_right _ hr)
  | closes performs | interruptsAndCloses performs => exact .inr (.inl ⟨_, performs⟩)
  | resumes performs current =>
    refine .inr (.inr ⟨_, _, performs, current, ?_⟩)
    rw [Traffic.sentOn_of_batch (d := d) rfl, if_pos rfl]
    exact List.mem_append_right _ hr
  | _ => exact .inl hr

theorem mem_kept (h : Carries c x d d') (hh : Handles c env x)
    (hn : (c.handle x).core.phase.isConnecting) (hr : r ∈ d.kept) : r ∈ d'.kept := by
  rcases h.kept_cases hr with hkept | ⟨t, hcleanup⟩ | ⟨k, t, hreplays, -⟩
  · exact hkept
  · rw [hh.eq_stoppingFlush_of_cleanup hcleanup] at hn
    cases hn
  · rw [(hh.replays hreplays).2.1] at hn
    cases hn

/-- A client that is to connect keeps a send. -/
theorem kept_of_work (h : Carries c (.work (.send r)) d d') (hp : c.phase.isConnecting) :
    r ∈ d'.kept := by
  have hqueue : c.phase.view.work = .queue := of_decide_eq_true hp
  cases h with
  | keeps hx =>
    cases hx
    exact List.mem_append_right _ (List.mem_singleton_self r)
  | refuses _ policy | passes _ policy =>
    rw [hqueue] at policy
    cases policy
  | leaves hx | answers hx | interrupts hx => cases hx
  | closes performs | interruptsAndCloses performs | resumes performs => cases performs.isPlain

/-- With its connection an unanswered send with a guarantee comes back, if the session goes on. -/
theorem kept_of_outstanding (h : Carries c x d d') (hx : x.isPlain) (hd : d'.outstanding = [])
    {send : OutstandingSend} (hs : send ∈ d.outstanding) (hstrong : send.isWeak = false) :
    send.request ∈ d'.kept ∨ ∃ t, c.Performs x .cleanup t := by
  cases h with
  | leaves => simp [hd] at hs
  | keeps hx' | refuses hx' | passes hx' | answers hx' =>
    subst hx'
    cases hx
  | interrupts =>
    refine .inl (List.mem_append_left _ (List.mem_map_of_mem ?_))
    exact List.mem_filter.mpr ⟨hs, by simp [hstrong]⟩
  | closes performs | interruptsAndCloses performs => exact .inr ⟨_, performs⟩
  | resumes => simp_all [Traffic.resume, Traffic.pass]

end Carries

variable {ℓ : Type}

theorem Traffic.attempts_grow (past more : List (Move ℓ)) :
    (after past).attempts <+: (after (past ++ more)).attempts := by
  induction more using List.reverseRecOn with
  | nil => simp
  | append_singleton more m ih =>
    rw [← List.append_assoc]
    refine ih.trans ?_
    by_cases hm : ∀ x, m ≠ .take x
    · exact (congrArg Traffic.attempts (after_of_ne_take _ hm)).symm ▸ List.prefix_refl _
    · obtain ⟨x, rfl⟩ : ∃ x, m = .take x := by simpa using hm
      rw [after_take]
      exact List.prefix_append ..

def sendNumber (past : List (Move ℓ)) (r : SendRequest) : Nat := (sendsHandled past).idxOf r

theorem Reached.kept_of_started {s : System ℓ} {past : List (Move ℓ)} (h : Reached past s)
    (hp : s.client.core.phase = .started) : (Traffic.after past).kept = [] := by
  rw [Traffic.kept_after, ← h.core_eq, h.coherent.sound.tracking.work (by rw [hp]; rfl)]
  rfl

theorem Reached.carries_current {s s' : System ℓ} {past : List (Move ℓ)} {x : Signal}
    (h : Reached past s) (hs : s.step (.take x) = some s') :
    Carries s.client.core x (.after past) (.after (past ++ [Move.take x])) :=
  h.core_eq ▸ h.carries hs

namespace System

variable {s s' : System ℓ} {past : List (Move ℓ)} {x : Signal} {r : SendRequest}

structure InOrder (past : List (Move ℓ)) (s : System ℓ) : Prop where
  /-- A lost connection brings the unanswered sends back in front of the kept ones. -/
  waiting : ((Traffic.after past).outstanding.map (·.request) ++ (Traffic.after past).kept).Sublist
    (sendsHandled past)
  sent : ∀ k, ((Traffic.after past).sentOn k).Sublist (sendsHandled past)
  asked : ∀ send ∈ (Traffic.after past).attempts,
    ∃ e, .request (.connect send.connection e) ∈ s.issued past
  idle : s.client.core.phase.isConnecting → (Traffic.after past).outstanding = []
  /-- Nothing is passed on a connection before the client gets started with it. -/
  fresh : s.client.core.phase.isConnecting → ∀ k, s.client.core.connection = some k →
    (Traffic.after past).sentOn k = []

namespace InOrder

theorem new (id : String) (threshold : Nat) : InOrder [] (System.new id threshold : System ℓ) where
  waiting := .slnil
  sent := fun _ => .slnil
  asked := nofun
  idle := fun _ => rfl
  fresh := fun _ _ _ => rfl

theorem move (h : s.InOrder past) {m : Move ℓ} (hs : s.step m = some s') (hm : ∀ x, m ≠ .take x) :
    s'.InOrder (past ++ [m]) := by
  obtain ⟨hw, hsent, hasked, hidle, hfresh⟩ := h
  constructor <;> rw [Traffic.after_of_ne_take past hm] <;>
    try rw [Reached.sendsHandled_of_ne_take past hm]
  · exact hw
  · exact hsent
  · rwa [issued_step hs hm]
  · rwa [core_step hs hm]
  · rwa [core_step hs hm]

theorem take (hr : Reached past s) (h : s.InOrder past) (hs : s.step (.take x) = some s') :
    s'.InOrder (past ++ [Move.take x]) := by
  have hh := hr.handles hs
  have hcarries := hr.carries_current hs
  have hissued : s'.issued (past ++ [Move.take x]) = _ := issued_take hs
  have hr' := hr.step hs
  have hcore := core_take hs
  refine ⟨?waiting, fun k => ?sent, fun send hm => ?asked, fun hn => ?idle, fun hn k hk => ?fresh⟩
  case waiting =>
    rw [Reached.sendsHandled_take]
    exact hcarries.inOrder h.waiting hr.kept_of_started
  case sent =>
    rw [Reached.sendsHandled_take]
    exact hcarries.sentOn hh h.waiting (h.sent k) fun hp => h.fresh hp k
  case asked =>
    obtain ⟨new, ha, hpasses⟩ := hcarries.passes_attempts
    rw [ha, List.mem_append] at hm
    rw [hissued]
    rcases hm with hm | hm
    · exact (h.asked send hm).imp fun e he => List.mem_append_left _ he
    · obtain ⟨e, he, -⟩ := hr.opened.current _ (hpasses.connection hh hm)
      exact ⟨e, List.mem_append_left _ he⟩
  case idle =>
    rw [hcore] at hn
    have ha := hcarries.attempts_of_isConnecting hh hn
    cases hp : s.client.core.phase.isConnecting with
    | true => exact hcarries.outstanding_nil (h.idle hp) ha
    | false =>
      rcases (hh.outstanding_of_connecting hp hn).2 with hstopped | hnil
      · refine hcarries.outstanding_nil ?_ ha
        rw [Traffic.outstanding_after, ← hr.core_eq]
        exact (hr.coherent.sound.tracking.idle (by rw [hstopped]; rfl)).2
      · rwa [Traffic.outstanding_after, Core.after_take, ← hr.core_eq]
  case fresh =>
    have hconnected := hr'.isSome_connection_iff
    rw [hcore] at hn hk hconnected
    rw [Traffic.sentOn_of_same (hcarries.attempts_of_isConnecting hh hn)]
    rcases hh.connect_of_new hk with hold | ⟨e, he⟩
    · refine h.fresh (Bool.of_not_eq_false fun hp => ?_) k hold
      rw [hk, (hh.outstanding_of_connecting hp hn).1] at hconnected
      simp at hconnected
    · -- The connection is a new one.
      obtain ⟨-, -, rfl, -⟩ := hh.connect he
      rw [Traffic.sentOn, List.map_eq_nil_iff, List.filter_eq_nil_iff]
      intro send hm
      obtain ⟨e', he'⟩ := h.asked send hm
      have hle := hr.opened.bounded _ _ he'
      simp only [decide_eq_true_eq]
      rintro hk'
      rw [hk'] at hle
      exact absurd hle (by simp)

end InOrder

end System

theorem Reached.inOrder {s : System ℓ} {past : List (Move ℓ)} (h : Reached past s) :
    s.InOrder past := by
  exact h.turn_induction (fun id threshold => .new id threshold) (fun _ ih hs hm => ih.move hs hm)
    fun hr ih hs => ih.take hr hs

namespace System

variable {s s' : System ℓ} {past : List (Move ℓ)} {x : Signal} {r : SendRequest}

/-- The send is kept, or its turn comes before that of the next answer to a lookup. -/
def Awaits (past : List (Move ℓ)) (s : System ℓ) (r : SendRequest) : Prop :=
  r ∈ (Traffic.after past).kept ∨ s.client.core.phase.isLookup ∧
    ∃ before after, s.client.mailbox.waiting = before ++ .work (.send r) :: after ∧
      ∀ x ∈ before, .lookup ∉ x.awaited

namespace Awaits

theorem move (h : s.Awaits past r) {m : Move ℓ} (hs : s.step m = some s')
    (hm : ∀ x, m ≠ .take x) : s'.Awaits (past ++ [m]) r := by
  rw [Awaits, Traffic.after_of_ne_take past hm, core_step hs hm]
  refine h.imp id (And.imp id ?_)
  rintro ⟨before, after, hw, hb⟩
  exact ⟨before, after ++ s.brought m ++ m.performed.flatMap Effect.posted,
    by simp [waiting_step hs hm, hw], hb⟩

theorem take (hr : Reached past s) (h : s.Awaits past r) (hs : s.step (.take x) = some s')
    (hp : s.client.core.phase.isConnecting) (hn : s'.client.core.phase.isConnecting) :
    s'.Awaits (past ++ [Move.take x]) r := by
  have hh := hr.handles hs
  have hcarries := hr.carries_current hs
  obtain ⟨-, rest, hw, rfl⟩ := step_take hs
  have hn : (s.client.core.handle x).core.phase.isConnecting := hn
  rcases h with hkept | ⟨hlookup, before, after, hw', hb⟩
  · exact .inl (hcarries.mem_kept hh hn hkept)
  · rw [hw] at hw'
    cases before with
    | nil =>
      -- The turn of the send comes: a client that is to connect keeps it.
      obtain ⟨rfl, rfl⟩ := List.cons.inj hw'
      exact .inl (hcarries.kept_of_work hp)
    | cons y before =>
      obtain ⟨rfl, rfl⟩ := List.cons.inj hw'
      refine .inr ⟨hh.isLookup_of_isLookup hlookup (hb _ List.mem_cons_self) hn, before, after, rfl,
        fun x hx => hb x (List.mem_cons_of_mem _ hx)⟩

theorem of_lost (hr : Reached past s) (hs : s.step (.take x) = some s') {k : ConnectionId}
    (hk : Ends k s.client.core x) (hn : s'.client.core.phase.isConnecting)
    (hcalled : Called past (.work (.send r))) (hqos : r.message.qos = .atLeastOnce)
    (hopen : settlements past r.promise = 0) : s'.Awaits (past ++ [Move.take x]) r := by
  have hh := hr.handles hs
  have hcarries := hr.carries_current hs
  have hidle := (hr.step hs).inOrder.idle hn
  have hplain : x.isPlain := by
    obtain ⟨-, ⟨e, rfl⟩ | rfl | ⟨e, rfl⟩⟩ := hk <;> rfl
  have hone := hr.count_send hcalled
  rw [(hr.finished_eq hcalled).1, hopen] at hone
  obtain ⟨ha, rest, hw, rfl⟩ := step_take hs
  have hn : (s.client.core.handle x).core.phase.isConnecting := hn
  have hplace : .work (.send r) ∈ s.client.mailbox.waiting ∨
      .send r ∈ s.client.core.pendingWork ∨ r ∈ s.client.core.outstanding.map (·.request) := by
    by_contra hnone
    simp only [not_or, ← List.count_eq_zero] at hnone
    simp only [ha, List.flatMap_nil, List.count_nil] at hone
    omega
  rcases hplace with hwaiting | hkept | hout
  · -- While the connection was there, nothing was to be looked up.
    have hnone : s.due .lookup = 0 := by
      have hconnected := (hr.coherent.sound.control.isCurrent_iff.mp hk.1).1
      rw [hr.coherent.sound.control.lookup]
      revert hconnected
      cases s.client.core.phase <;> simp [Phase.isConnected, Phase.marks, Phase.isLookup]
    rw [hw, List.mem_cons] at hwaiting
    obtain ⟨before, after, rfl⟩ := List.append_of_mem
      (hwaiting.resolve_left (by rintro rfl; cases hplain))
    refine .inr ⟨hh.isLookup_of_ends hk hn, before, after, rfl, fun z hz hlookup => ?_⟩
    have hmem : Awaited.lookup ∈ s.awaited := by
      simp only [awaited, hw, List.mem_append, List.mem_flatMap]
      exact .inl (.inr ⟨z, by simp [hz], hlookup⟩)
    exact List.count_eq_zero.mp hnone hmem
  · refine .inl (hcarries.mem_kept hh hn ?_)
    rw [Traffic.kept_after, ← hr.core_eq]
    exact List.mem_filterMap.mpr ⟨_, hkept, rfl⟩
  · obtain ⟨send, hm, rfl⟩ := List.mem_map.mp hout
    rw [hr.core_eq, ← Traffic.outstanding_after] at hm
    rcases hcarries.kept_of_outstanding hplain hidle hm (by simp [OutstandingSend.isWeak, hqos])
      with hkept | ⟨t, hcleanup⟩
    · exact .inl hkept
    · rw [hh.eq_stoppingFlush_of_cleanup hcleanup] at hn
      cases hn

end Awaits

end System

/-- A client has lost a connection, and with no stop in between it is still to be connected
again. -/
structure Reconnecting (start : List (Move ℓ)) (x : Signal) (between : List (Move ℓ)) : Prop where
  lost : ∃ k, Ends k (Core.after start) x
  connecting : ∀ earlier, earlier <+: between →
    (Core.after (start ++ Move.take x :: earlier)).phase.isConnecting

structure System.SendsInOrder (past : List (Move ℓ)) (s : System ℓ) : Prop where
  /-- What the transport is asked to send are the attempts, in order. -/
  wire : (s.issued past).filter (·.isSend) =
    (Traffic.after past).attempts.map (·.transmission)
  handled : ∀ send ∈ (Traffic.after past).attempts, send.request ∈ sendsHandled past
  /-- So no two sends have the same number. -/
  once : (sendsHandled past).Nodup
  ordered : ∀ k, ((Traffic.after past).sentOn k).Pairwise fun q r =>
    sendNumber past q < sendNumber past r
  /-- No send is tried on a connection that does not get the client started. -/
  quiet : ∀ start x between later, past = start ++ Move.take x :: between ++ later →
    Reconnecting start x between →
      (Traffic.after (start ++ Move.take x :: between)).attempts = (Traffic.after start).attempts
  /-- The first connection with which the client gets started again takes the send that was not
  over when the connection was lost, once, with earlier sends before it and later ones after
  it. -/
  again : ∀ start x between y later,
    past = start ++ Move.take x :: between ++ Move.take y :: later → Reconnecting start x between →
    (Core.after (start ++ Move.take x :: between ++ [Move.take y])).phase = .started →
    ∀ r, Called start (.work (.send r)) → r.message.qos = .atLeastOnce →
      settlements start r.promise = 0 →
      ∃ k before after,
        (Core.after (start ++ Move.take x :: between ++ [Move.take y])).connection = some k ∧
        (Traffic.after past).sentOn k = before ++ r :: after ∧
        (∀ q ∈ before, sendNumber past q < sendNumber past r) ∧
        ∀ q ∈ after, sendNumber past r < sendNumber past q

theorem Reconnecting.of_append {start between more : List (Move ℓ)} {x : Signal}
    (h : Reconnecting start x (between ++ more)) : Reconnecting start x between where
  lost := h.lost
  connecting := fun earlier he => h.connecting earlier (he.trans (List.prefix_append ..))

namespace Reached

variable {s u : System ℓ} {past start between : List (Move ℓ)} {x : Signal} {r : SendRequest}

theorem pairwise_sendNumber (h : Reached past s) {rs : List SendRequest}
    (hrs : rs.Sublist (sendsHandled past)) :
    rs.Pairwise fun q r => sendNumber past q < sendNumber past r := by
  refine List.Pairwise.sublist hrs (List.pairwise_iff_getElem.mpr fun i j hi hj hlt => ?_)
  rwa [sendNumber, sendNumber, h.nodup_sendsHandled.idxOf_getElem,
    h.nodup_sendsHandled.idxOf_getElem]

/-- While a client is to be connected again, nothing is passed, and a send that was not over keeps
waiting. -/
theorem awaits_of_reconnecting (h : Reached (start ++ Move.take x :: between) u)
    (hc : Reconnecting start x between) :
    (Traffic.after (start ++ Move.take x :: between)).attempts = (Traffic.after start).attempts ∧
      ∀ r, Called start (.work (.send r)) → r.message.qos = .atLeastOnce →
        settlements start r.promise = 0 → u.Awaits (start ++ Move.take x :: between) r := by
  induction between using List.reverseRecOn generalizing u with
  | nil =>
    obtain ⟨w, hw, hrun⟩ := h.of_append
    have hs : w.step (.take x) = some u := by simpa [System.run_cons] using hrun
    obtain ⟨k, hk⟩ := hc.lost
    have hn := hc.connecting [] (List.prefix_refl _)
    have hh := hw.handles hs
    have hcarries := hw.carries_current hs
    rw [← hw.core_eq] at hk
    refine ⟨hcarries.attempts_of_isConnecting hh ?_, fun r => .of_lost hw hs hk ?_⟩
    · rwa [Core.after_take, ← hw.core_eq] at hn
    · rwa [h.core_eq]
  | append_singleton between m ih =>
    rw [← List.cons_append, ← List.append_assoc] at h ⊢
    obtain ⟨w, hw, hrun⟩ := h.of_append
    have hs : w.step m = some u := by simpa [System.run_cons] using hrun
    obtain ⟨ha, hawaits⟩ := ih hw hc.of_append
    by_cases hm : ∀ x, m ≠ .take x
    · rw [Traffic.after_of_ne_take _ hm]
      exact ⟨ha, fun r hr hqos hopen => (hawaits r hr hqos hopen).move hs hm⟩
    · obtain ⟨z, rfl⟩ : ∃ z, m = .take z := by simpa using hm
      have hp := hc.connecting between (List.prefix_append ..)
      have hn := hc.connecting _ (List.prefix_refl _)
      rw [← List.cons_append, ← List.append_assoc, ← h.core_eq] at hn
      rw [← hw.core_eq] at hp
      have hawaits := fun r hr hqos hopen => (hawaits r hr hqos hopen).take hw hs hp hn
      have hh := hw.handles hs
      have hcarries := hw.carries_current hs
      obtain ⟨-, rest, -, rfl⟩ := System.step_take hs
      exact ⟨(hcarries.attempts_of_isConnecting hh hn).trans ha, hawaits⟩

/-- The turn in which the client gets started again passes what has waited. -/
theorem again {y : Signal} {later : List (Move ℓ)}
    (h : Reached (start ++ Move.take x :: between ++ Move.take y :: later) s)
    (hc : Reconnecting start x between)
    (hstarted : (Core.after (start ++ Move.take x :: between ++ [Move.take y])).phase = .started)
    (hr : Called start (.work (.send r))) (hqos : r.message.qos = .atLeastOnce)
    (hopen : settlements start r.promise = 0) :
    ∃ k, (Core.after (start ++ Move.take x :: between ++ [Move.take y])).connection = some k ∧
      r ∈ (Traffic.after (start ++ Move.take x :: between ++ Move.take y :: later)).sentOn k := by
  obtain ⟨u, v, hu, hs⟩ := h.of_append_cons
  have hh := hu.handles hs
  have hcarries := hu.carries_current hs
  have hnone := (hu.step hs).kept_of_started ((hu.step hs).core_eq ▸ hstarted)
  rw [Core.after_take, ← hu.core_eq] at hstarted ⊢
  rcases (hu.awaits_of_reconnecting hc).2 r hr hqos hopen with hkept | ⟨hlookup, -⟩
  · rcases hcarries.kept_cases hkept with hkept | ⟨t, hcleanup⟩ | ⟨k, t, hreplays, hk, hm⟩
    · rw [hnone] at hkept
      cases hkept
    · rw [hh.eq_stoppingFlush_of_cleanup hcleanup] at hstarted
      cases hstarted
    · obtain ⟨-, -, hcurrent, hconnection⟩ := hh.replays hreplays
      refine ⟨k, by rw [hconnection, ← hcurrent, hk], ?_⟩
      have hgrown := Traffic.attempts_grow (start ++ Move.take x :: between ++ [Move.take y]) later
      rw [List.append_assoc _ [_], List.singleton_append] at hgrown
      exact ((hgrown.sublist.filter _).map _).subset hm
  · exact absurd hstarted (hh.ne_started_of_isLookup hlookup)

theorem sends_in_order (h : Reached past s) : s.SendsInOrder past := by
  have hvalid := h.traffic
  refine ⟨?_, hvalid.attempted, h.nodup_sendsHandled,
    fun k => h.pairwise_sendNumber (h.inOrder.sent k), ?_, ?_⟩
  · rw [← h.issued_traffic.1, hvalid.wire]
  · rintro start x between later rfl hc
    obtain ⟨u, hu, -⟩ := h.of_append
    exact (hu.awaits_of_reconnecting hc).1
  · rintro start x between y later rfl hc hstarted r hr hqos hopen
    obtain ⟨k, hk, hm⟩ := h.again hc hstarted hr hqos hopen
    obtain ⟨before, after, hsent⟩ := List.append_of_mem hm
    have hordered := h.pairwise_sendNumber (h.inOrder.sent k)
    rw [hsent, List.pairwise_append, List.pairwise_cons] at hordered
    obtain ⟨-, ⟨hafter, -⟩, hbefore⟩ := hordered
    exact ⟨k, before, after, hk, hsent, fun q hq => hbefore q hq r List.mem_cons_self, hafter⟩

/-- A run in which a connection is lost with two sends unanswered, and the next one before the
client is started again. A send that comes in between is passed after them. -/
def resendTwice : List (Move Unit) :=
  let options : SendOptions := { qos := .atLeastOnce }
  let message (text : String) : OutboundMessage :=
    ⟨"a", .text text, options.qos, options.ttl, options.properties⟩
  let loss : ClientError := .network "lost"
  [.call .stopped .start 0, .take (.start (some 0)), .perform (.publish .starting),
    .perform (.notify .starting), .perform (.request .lookup),
    .answerLookup (.ok (.found default)), .take (.endpointAnswered (.ok (.found default))),
    .perform (.publish .starting), .perform (.request (.connect ⟨1⟩ default)),
    .answer (.opened ⟨1⟩) (.ok ()), .take (.opened ⟨1⟩ (.ok ())), .perform (.publish .started),
    .perform (.request (.report default)), .perform (.settle 0 (.ok ())),
    .perform (.notify .started),
    .call .started (.send "a" (.text "first") options) 1,
    .take (.work (.send ⟨message "first", 1⟩)), .perform (.request (.send ⟨1⟩ 1 (message "first"))),
    .call .started (.send "a" (.text "second") options) 2,
    .take (.work (.send ⟨message "second", 2⟩)),
    .perform (.request (.send ⟨1⟩ 2 (message "second"))),
    .disconnect ⟨1⟩ loss, .take (.disconnected ⟨1⟩ loss), .perform (.publish .retrying),
    .perform .takeDrain, .perform (.notify (.retrying (some loss))), .perform (.request .lookup),
    .call .retrying (.send "a" (.text "third") options) 3,
    .answerLookup (.ok (.found default)), .take (.work (.send ⟨message "third", 3⟩)),
    .take (.endpointAnswered (.ok (.found default))), .perform (.publish .retrying),
    .perform (.request (.connect ⟨2⟩ default)), .answer (.opened ⟨2⟩) (.ok ()),
    .disconnect ⟨2⟩ loss, .take (.opened ⟨2⟩ (.ok ())), .perform (.publish .retrying),
    .perform (.request (.report default)), .perform (.post .subscriptionsRemade),
    .take (.disconnected ⟨2⟩ loss), .perform (.publish .retrying), .perform .takeDrain,
    .perform (.notify (.retrying (some loss))), .perform (.request .lookup),
    .answerLookup (.ok (.found default)), .take .subscriptionsRemade,
    .take (.endpointAnswered (.ok (.found default))), .perform (.publish .retrying),
    .perform (.request (.connect ⟨3⟩ default)), .answer (.opened ⟨3⟩) (.ok ()),
    .take (.opened ⟨3⟩ (.ok ())), .perform (.publish .retrying),
    .perform (.request (.report default)), .perform (.post .subscriptionsRemade),
    .take .subscriptionsRemade, .perform (.publish .started), .perform (.notify .restarted),
    .perform (.request (.send ⟨3⟩ 3 (message "first"))),
    .perform (.request (.send ⟨3⟩ 4 (message "second"))),
    .perform (.request (.send ⟨3⟩ 5 (message "third")))]

set_option maxRecDepth 8000 in
theorem sends_in_order_resendTwice : ∃ s, Reached resendTwice s ∧
    (Traffic.after resendTwice).attempts.map (fun send => (send.connection, send.request.promise)) =
      [(⟨1⟩, 1), (⟨1⟩, 2), (⟨3⟩, 1), (⟨3⟩, 2), (⟨3⟩, 3)] ∧
    s.SendsInOrder resendTwice := by
  have hr : ∃ s, (System.new "" 1).run resendTwice = some s := ⟨_, rfl⟩
  obtain ⟨s, hs⟩ := hr
  exact ⟨s, ⟨"", 1, hs⟩, rfl, sends_in_order ⟨"", 1, hs⟩⟩

end Reached

end PubSub
