import PubSub.Proofs.Lifecycle
import PubSub.Proofs.Retries

/-! # Running out of attempts

Whatever happens in an outage and in which order, what has been shown and what
the stage of the client leaves to be shown is the whole trace. Everything that
is under way goes on for so many moves only, and where nothing can go on the
client is stopped. So each client that is started gets to the end of the trace.
-/

namespace PubSub

namespace Outage

variable {ℓ : Type} {o : Outage} {es : List Endpoint} {limit : Nat} {delays : List Duration}

theorem brings_of_brought {s : System ℓ} {m : Move ℓ} (hm : o.Allows m) {x : Signal}
    (hx : x ∈ s.brought m) : o.Brings x := by
  cases m with
  | call seen call p =>
    obtain rfl := List.mem_singleton.mp hx
    obtain ⟨hstop, hstart⟩ := hm
    have hne (hc : call ≠ .start) : p ≠ o.start := fun hp => hc (hstart.mpr hp)
    cases call with
    | start => exact congrArg some (hstart.mp rfl)
    | stop => exact absurd rfl hstop
    | send | subscribe | unsubscribe | confirm => exact hne nofun
  | answer r result =>
    obtain rfl := List.mem_singleton.mp hx
    cases r with
    | opened k => exact hm
    | timerEnded n =>
      obtain rfl : result = .ok () := hm
      rfl
    | closed | sent | subscribed | unsubscribed => trivial
  | answerLookup | deliver =>
    obtain rfl := List.mem_singleton.mp hx
    trivial
  | disconnect => exact hm.elim
  | finish i result =>
    obtain rfl : result = .ok () := hm
    obtain ⟨⟨task, completion⟩, -, hsignal⟩ :=
      Option.bind_eq_some_iff.mp (Option.mem_toList.mp hx)
    cases completion with
    | failure => cases hsignal
    | flush =>
      cases hsignal
      trivial
    | delivery d =>
      cases d <;> cases hsignal
      trivial
  | listen | take | perform => cases hx

theorem allows_answer (o : Outage) (r : Session.Reply) :
    ∃ result, o.Allows (.answer r result : Move ℓ) := by
  cases r with
  | opened k => exact ⟨_, rfl⟩
  | timerEnded n => exact ⟨_, rfl⟩
  | closed | sent | subscribed | unsubscribed => exact ⟨.ok (), trivial⟩

end Outage

theorem System.due_pos_of_waiting {ℓ : Type} {s : System ℓ} {x : Signal} {a : Awaited}
    (hx : x ∈ s.client.mailbox.waiting) (ha : a ∈ x.awaited) : 0 < s.due a := by
  rw [due, List.count_pos_iff, awaited]
  simp only [List.mem_append]
  exact .inl (.inr (List.mem_flatMap.mpr ⟨x, hx, ha⟩))

namespace Outage

variable {ℓ : Type} {o : Outage} {es : List Endpoint} {limit : Nat} {delays : List Duration}

variable (o es limit delays) in
structure Follows (past : List (Move ℓ)) (s : Served ℓ) (r : Rotation) (stage : Stage)
    (rest : List Effect) : Prop where
  reached : Reached past s.system
  allows : ∀ m ∈ past, o.Allows m
  brings : ∀ x ∈ s.system.client.mailbox.waiting, o.Brings x
  posted : ∀ e ∈ s.system.agenda, e.posted = []
  bare : o.Bare s.system.client.core
  stands : o.Stands es limit s.system.client.core r rest stage
  shown : (s.system.issued past).filter o.shows ++ rest = o.trace es limit delays
  rotation : s.ahead.rotation = r.after stage.uses
  results : s.results = (r.answers stage.uses).map (·.result?)
  started : stage ≠ .ready ↔ .start (some o.start) ∈ handled past

/-- Nothing is under way that could go on. -/
def Still (o : Outage) (s : Served ℓ) : Prop := ∀ m, m.continues → o.Allows m → s.step m = none

/-- Where the system could go on, only the service can prevent it. -/
theorem Still.service {s : Served ℓ} {t : System ℓ} {m : Move ℓ} (h : o.Still s)
    (hc : m.continues) (hm : o.Allows m) (hs : s.system.step m = some t) :
    s.service.move m = none := by
  by_contra hne
  obtain ⟨v, hv⟩ := Option.ne_none_iff_exists'.mp hne
  have hstep := h m hc hm
  simp [Served.step, hs, hv] at hstep

def left (s : Served ℓ) (rest : List Effect) : Nat :=
  s.system.weight + 3 * s.system.client.core.pendingWork.length + 10 * rest.length

namespace Follows

variable {past : List (Move ℓ)} {s s' : Served ℓ} {m : Move ℓ} {r : Rotation} {stage : Stage}
  {rest : List Effect}

theorem move (h : o.Follows es limit delays past s r stage rest) (hm : o.Allows m)
    (hs : s.step m = some s') (ht : ∀ x, m ≠ .take x) :
    o.Follows es limit delays (past ++ [m]) s' r stage rest := by
  obtain ⟨hsys, -⟩ := Served.step_eq_some.mp hs
  have hagenda := System.agenda_step hsys ht
  have hcore := System.core_step hsys ht
  obtain ⟨hresults, hrotation⟩ := Served.results_step h.reached.coherent hs ht
  refine ⟨h.reached.step hsys, ?allows, ?brings, ?posted, hcore ▸ h.bare, hcore ▸ h.stands, ?shown,
    ?rotation, ?results, ?started⟩
  case allows =>
    intro m' hm'
    rcases List.mem_append.mp hm' with hm' | hm'
    · exact h.allows m' hm'
    · exact List.mem_singleton.mp hm' ▸ hm
  case brings =>
    intro x hx
    rw [System.waiting_step hsys ht, List.mem_append, List.mem_append] at hx
    rcases hx with (hx | hx) | hx
    · exact h.brings x hx
    · exact brings_of_brought hm hx
    · obtain ⟨e, he, hx⟩ := List.mem_flatMap.mp hx
      rw [h.posted e (hagenda ▸ List.mem_append_left _ he)] at hx
      cases hx
  case posted =>
    intro e he
    exact h.posted e (hagenda ▸ List.mem_append_right _ he)
  case shown =>
    rw [System.issued_step hsys ht]
    exact h.shown
  case rotation =>
    rw [hrotation]
    exact h.rotation
  case results =>
    rw [hresults]
    exact h.results
  case started =>
    rw [handled_of_ne_take past ht]
    exact h.started

/-- No connection is closed while it opens. -/
theorem not_isCurrent_of_closed {k : ConnectionId}
    (h : o.Follows es limit delays past s r stage rest)
    (hx : .closed k ∈ s.system.client.mailbox.waiting) :
    s.system.client.core.isCurrent k = false := by
  by_contra hk
  have hconnection : s.system.client.core.connection = some k := by simpa [Core.isCurrent] using hk
  rw [h.stands.connection_eq, Option.ite_none_right_eq_some, Option.some.injEq] at hconnection
  obtain ⟨rfl, rfl⟩ := hconnection
  have hcontrol := h.reached.coherent.sound.control
  have hphase : s.system.client.core.phase.isConnected ∧
      s.system.client.core.phase ≠ .stoppingClose := by
    cases h.stands with
    | opening phase => rcases phase with hp | hp <;> rw [hp] <;> decide
  have hdue := hcontrol.closed hphase.1
  rw [Phase.marks, if_neg hphase.2] at hdue
  have hpos := System.due_pos_of_waiting hx (a := .reply (.closed ⟨_⟩)) (List.mem_singleton_self _)
  exact absurd hdue hpos.ne'

theorem take {x : Signal} (h : o.Follows es limit delays past s r stage rest)
    (hs : s.step (.take x) = some s') : ∃ r' stage' rest',
      o.Follows es limit delays (past ++ [.take x]) s' r' stage' rest' ∧
        left s' rest' < left s rest := by
  obtain ⟨hsys, -⟩ := Served.step_eq_some.mp hs
  have hweight := System.weight_take hsys
  obtain ⟨results, hres, hrot', hres'⟩ := Served.results_take hs
  obtain ⟨ha, waiting, hw, he⟩ := System.step_take hsys
  have hx : x ∈ s.system.client.mailbox.waiting := hw ▸ List.mem_cons_self
  have hstart : x = .start (some o.start) → stage = .ready := by
    rintro rfl
    by_contra hne
    -- The start would be handled twice.
    have hn := h.reached.given.once
    rw [System.posted, List.flatMap_append, List.nodup_append] at hn
    have hp : o.start ∈ (Signal.start (some o.start)).promises := List.mem_singleton_self _
    exact hn.2.2 _ (List.mem_flatMap.mpr ⟨_, h.started.mp hne, hp⟩) _
      (List.mem_flatMap.mpr ⟨_, hx, hp⟩) rfl
  have hlookup : ∀ result, x = .endpointAnswered result →
      some result ∈ (r.answers stage.uses).map (·.result?) := by
    rintro result rfl
    rw [← h.results, hres]
    exact List.mem_append_left _ (List.mem_singleton_self _)
  have hclosed : ∀ k, x = .closed k → s.system.client.core.isCurrent k = false := by
    rintro k rfl
    exact h.not_isCurrent_of_closed hx
  obtain ⟨r', stage', rest', hl⟩ := h.stands.leads h.bare (h.brings x hx) hstart hlookup hclosed
  obtain ⟨before, rfl, huses, hbefore⟩ := hl.uses
  have hcore : s'.system.client.core = (s.system.client.core.handle x).core := by rw [he]; rfl
  have hagenda : s'.system.agenda = (s.system.client.core.handle x).effects := by rw [he]; rfl
  refine ⟨_, stage', rest', ⟨h.reached.step hsys, ?_, ?_, ?_, hcore ▸ hl.bare,
    hcore ▸ hl.stands, ?_, ?_, ?_, ?_⟩, ?_⟩
  · exact List.forall_mem_append.mpr ⟨h.allows, by simp [Allows]⟩
  · intro y hy
    rw [he] at hy
    exact h.brings y (hw ▸ List.mem_cons_of_mem _ hy)
  · exact hagenda ▸ hl.posted
  · rw [System.issued_take hsys, List.filter_append, List.append_assoc, ← hl.shown]
    exact h.shown
  · rw [hrot', h.rotation, ← Rotation.after_append, huses, Rotation.after_append]
  · -- The answer that is handled was the first one on its way.
    have hall := congrArg (fun uses => (r.answers uses).map (·.result?)) huses
    simp only [Rotation.answers_append, List.map_append, ← h.rotation, ← h.results, hres,
      hbefore, List.append_assoc] at hall
    rw [hres', List.append_cancel_left hall]
  · rw [handled_take, List.mem_append, List.mem_singleton]
    constructor
    · intro hne
      by_cases hr : stage = .ready
      · refine .inr ?_
        by_contra hx
        exact hne (hl.started.mpr ⟨hr, fun he => hx he.symm⟩)
      · exact .inl (h.started.mp hr)
    · rintro (hmem | hmem) hready <;> obtain ⟨hr, hx⟩ := hl.started.mp hready
      · exact h.started.mpr hmem hr
      · exact hx hmem.symm
  · have hlt := hl.weight
    simp only [left, hcore]
    omega

/-- Whatever goes on makes less of what is left to be done. -/
theorem step (h : o.Follows es limit delays past s r stage rest) (hm : o.Allows m)
    (hs : s.step m = some s') : ∃ r' stage' rest',
      o.Follows es limit delays (past ++ [m]) s' r' stage' rest' ∧
        (m.continues → left s' rest' < left s rest) := by
  by_cases ht : ∀ x, m ≠ .take x
  · refine ⟨r, stage, rest, h.move hm hs ht, fun hc => ?_⟩
    obtain ⟨hsys, -⟩ := Served.step_eq_some.mp hs
    have hw : s'.system.weight < s.system.weight := by
      refine System.weight_step hsys hc ht ?_
      rintro i result rfl
      exact hm
    rw [left, left, System.core_step hsys ht]
    omega
  · obtain ⟨x, rfl⟩ : ∃ x, m = .take x := by simpa using ht
    obtain ⟨r', stage', rest', hf, hl⟩ := h.take hs
    exact ⟨r', stage', rest', hf, fun _ => hl⟩

theorem run (h : o.Follows es limit delays past s r stage rest) {more : List (Move ℓ)}
    (hr : s.run more = some s') (hm : ∀ m ∈ more, o.Allows m) : ∃ r' stage' rest',
      o.Follows es limit delays (past ++ more) s' r' stage' rest' ∧
        ((∀ m ∈ more, m.continues) → more.length + left s' rest' ≤ left s rest) := by
  induction more generalizing past s r stage rest with
  | nil =>
    obtain rfl := Option.some.inj hr
    exact ⟨r, stage, rest, by simpa using h, by simp⟩
  | cons m more ih =>
    rw [Served.run, List.foldlM_cons] at hr
    obtain ⟨t, ht, hr⟩ := Option.bind_eq_some_iff.mp hr
    obtain ⟨hm, hmore⟩ := List.forall_mem_cons.mp hm
    obtain ⟨r₁, stage₁, rest₁, h₁, hl₁⟩ := h.step hm ht
    obtain ⟨r', stage', rest', h', hl'⟩ := ih h₁ hr hmore
    rw [List.append_assoc] at h'
    refine ⟨r', stage', rest', h', fun hc => ?_⟩
    obtain ⟨hc, hcmore⟩ := List.forall_mem_cons.mp hc
    have hlt := hl₁ hc
    have hle := hl' hcmore
    rw [List.length_cons]
    omega

theorem shown_prefix (h : o.Follows es limit delays past s r stage rest) :
    o.shown past <+: o.trace es limit delays := by
  rw [← h.shown, System.issued, List.filter_append, List.append_assoc]
  exact List.prefix_append ..

theorem none_not_mem_results (h : o.Follows es limit delays past s r stage rest) :
    none ∉ s.results := by
  rw [h.results]
  cases h.stands with
  | looking phase starts connection timer error offers rest_eq =>
    have hn := offers.next_ne_overflow
    simp only [Stage.uses, Rotation.answers, List.map_cons, List.map_nil, List.mem_singleton]
    intro he
    cases hr : r.next.1 <;> simp [hr, Rotation.Answer.result?] at he hn
  | ready | opening | waiting | ending | finished => exact List.not_mem_nil

theorem atRest_of_still (h : o.Follows es limit delays past s r stage rest) (hs : o.Still s) :
    s.system.AtRest := by
  by_contra hne
  obtain ⟨e, agenda, ha⟩ := List.exists_cons_of_ne_nil hne
  have hsys : s.system.step (.perform e) = some (s.system.perform e agenda) :=
    System.step_eq_some.mpr (.perform ha)
  have hv := hs.service (m := .perform e) rfl trivial hsys
  simp only [EndpointService.move, ite_eq_left_iff, reduceCtorEq, imp_false, not_not] at hv
  obtain ⟨rfl, hoverflow⟩ := hv
  refine h.none_not_mem_results (List.mem_append_right _ (List.mem_map.mpr ⟨.overflow, ?_, rfl⟩))
  rw [Served.ahead, ha, ← hoverflow]
  exact List.mem_append_right _ List.mem_cons_self

theorem waiting_of_still (h : o.Follows es limit delays past s r stage rest) (hs : o.Still s) :
    s.system.client.mailbox.waiting = [] := by
  by_contra hne
  obtain ⟨x, waiting, hw⟩ := List.exists_cons_of_ne_nil hne
  have hsys : s.system.step (.take x) = some (s.system.begin x ⟨waiting, true⟩) :=
    System.step_eq_some.mpr (.take (h.atRest_of_still hs) hw)
  cases hs.service (m := .take x) rfl trivial hsys

theorem answer_of_lookup (h : o.Follows es limit delays past s r stage rest) (hs : o.Still s)
    (hl : s.system.due .lookup ≠ 0) : ∃ answer answers result,
      s.service.answers = answer :: answers ∧ answer.result? = some result := by
  have hresults : s.results = s.service.answers.map (·.result?) := by
    rw [Served.results, Served.ahead_of_atRest (h.atRest_of_still hs), h.waiting_of_still hs]
    rfl
  have hlookup : s.system.client.core.phase.isLookup := by
    rw [h.reached.coherent.sound.control.lookup, Phase.marks] at hl
    simpa using hl
  have hstage : stage = .looking := by
    cases h.stands with
    | looking => rfl
    | ready phase | waiting phase | ending phase | finished phase =>
      rw [phase] at hlookup
      cases hlookup
    | opening phase =>
      rcases phase with hp | hp <;> rw [hp] at hlookup <;> cases hlookup
  subst hstage
  have hnone := h.none_not_mem_results
  rw [h.results] at hresults
  cases ha : s.service.answers with
  | nil =>
    rw [ha] at hresults
    cases hresults
  | cons answer answers =>
    cases hr : answer.result? with
    | some result => exact ⟨answer, answers, result, rfl, hr⟩
    | none =>
      rw [ha, List.map_cons, hr] at hresults
      rw [h.results, hresults] at hnone
      exact absurd List.mem_cons_self hnone

theorem due_of_still (h : o.Follows es limit delays past s r stage rest) (hs : o.Still s)
    (a : Awaited) : s.system.due a = 0 := by
  by_contra hne
  have ha : s.system.agenda = [] := h.atRest_of_still hs
  have hw := h.waiting_of_still hs
  have hmem : a ∈ s.system.awaited := List.count_pos_iff.mp (Nat.pos_of_ne_zero hne)
  rw [System.awaited, ha, hw, List.flatMap_nil, List.flatMap_nil, List.append_nil,
    List.append_nil, List.mem_append, List.mem_append] at hmem
  rcases hmem with (hmem | hmem) | hmem
  · obtain rfl := List.eq_of_mem_replicate hmem
    have hl : 0 < s.system.lookups := by simpa using List.length_pos_of_mem hmem
    obtain ⟨answer, answers, result, hanswers, hresult⟩ := h.answer_of_lookup hs hne
    have hsys : s.system.step (.answerLookup result) =
        some { s.system.post (.endpointAnswered result) with lookups := s.system.lookups - 1 } :=
      System.step_eq_some.mpr (.answerLookup hl)
    have hv := hs.service (m := .answerLookup result) rfl trivial hsys
    simp [EndpointService.move, hanswers, hresult] at hv
  · obtain ⟨reply, hr, -⟩ := List.mem_map.mp hmem
    obtain ⟨result, hm⟩ := allows_answer (ℓ := ℓ) o reply
    have hsys : s.system.step (.answer reply result) =
        some { s.system.post (reply.signal result) with calls := s.system.calls.erase reply } :=
      System.step_eq_some.mpr (.answer hr)
    cases hs.service (m := .answer reply result) rfl hm hsys
  · obtain ⟨job, hj, -⟩ := List.mem_flatMap.mp hmem
    obtain ⟨i, hi⟩ := List.mem_iff_getElem?.mp hj
    cases hs.service (m := .finish i (.ok ())) rfl rfl (System.step_eq_some.mpr (.finish hi))

theorem timersKept (h : o.Follows es limit delays past s r stage rest) : TimersKept past := by
  intro earlier n e hp
  have hm := h.allows _ (hp.subset (List.mem_append_right _ (List.mem_singleton_self _)))
  cases hm

theorem finished_of_still (h : o.Follows es limit delays past s r stage rest) (hs : o.Still s)
    {seen : ClientState} (hstart : .call seen .start o.start ∈ past) : stage = .finished := by
  have hcontrol := h.reached.coherent.sound.control
  have hdue := h.due_of_still hs
  cases h.stands with
  | ready =>
    have hposted := h.reached.given.complete _ ⟨seen, .start, o.start, hstart, rfl⟩
    rw [System.posted, h.waiting_of_still hs, List.append_nil] at hposted
    exact absurd rfl (h.started.mpr hposted)
  | looking phase =>
    have hl := hcontrol.lookup
    rcases phase with hp | hp <;> rw [hp, hdue] at hl <;> cases hl
  | opening phase =>
    have ho := hcontrol.opened
    rcases phase with hp | hp <;> rw [hp] at ho <;> cases (hdue _).symm.trans (ho rfl)
  | waiting phase =>
    have ht : Timed _ _ _ _ := h.reached.timely h.timersKept
    rw [phase] at ht
    cases (hdue _).symm.trans (ht.ending (by decide))
  | ending phase =>
    have hf := hcontrol.flush
    rw [phase, hdue] at hf
    cases hf
  | finished => rfl

end Follows

variable (o es limit delays) in
/-- A client that was started has tried everything, and is stopped. -/
structure GaveUp (past : List (Move ℓ)) (s : Served ℓ) : Prop where
  /-- All of the trace, in order; at its end the start fails and the client stops, both with the
  limit as the reason. -/
  shown : o.shown past = o.trace es limit delays
  opened : (past.flatMap Move.performed).filterMap Effect.opened? =
    (List.replicate (limit + 1) es).flatten
  length_opened : ((past.flatMap Move.performed).filterMap Effect.opened?).length =
    (limit + 1) * es.length
  scheduled : (past.flatMap Move.performed).filterMap Effect.scheduled? = delays
  failures : (past.flatMap Move.performed).filterMap Effect.failure? =
    (List.range' 1 ((limit + 1) * es.length)).map (o.error ⟨·⟩)
  /-- As many retries are told without an error as there are waits. -/
  waits : (past.flatMap Move.performed).count (.notify (.retrying none)) = limit
  phase : s.system.client.core.phase = .stopped
  state : s.system.client.state = .stopped

theorem Follows.gaveUp {past : List (Move ℓ)} {s : Served ℓ} {r : Rotation} {rest : List Effect}
    (h : o.Follows es limit delays past s r .finished rest) (hs : o.Still s)
    (hd : delays.length = limit) : o.GaveUp es limit delays past s := by
  have ha : s.system.agenda = [] := h.atRest_of_still hs
  have hphase : s.system.client.core.phase = .stopped ∧ rest = [] := by
    cases h.stands with
    | finished phase starts connection timer rest_eq => exact ⟨phase, rest_eq⟩
  obtain ⟨hphase, rfl⟩ := hphase
  have hshown : o.shown past = o.trace es limit delays := by
    have hshown := h.shown
    rwa [System.issued, ha, List.append_nil, List.append_nil] at hshown
  have hopened : (past.flatMap Move.performed).filterMap Effect.opened? =
      (List.replicate (limit + 1) es).flatten := by
    rw [← filterMap_shown (o := o) opened?_of_shows, hshown, opened_trace, hd]
  refine ⟨hshown, hopened, by simp [hopened], ?_, ?_, ?_, hphase, ?_⟩
  · rw [← filterMap_shown (o := o) scheduled?_of_shows, hshown, scheduled_trace]
  · rw [← filterMap_shown (o := o) failure?_of_shows, hshown, failures_trace, hd]
  · rw [← List.count_filter (p := o.shows) rfl]
    change (o.shown past).count _ = limit
    rw [hshown, count_trace, hd]
  · rcases h.reached.shown with ⟨hstate, -⟩ | ⟨agenda, ha', -⟩
    · rw [hstate, hphase]
      rfl
    · cases ha.symm.trans ha'

/-- A client that can go on gets to where it cannot. -/
theorem Follows.exists_still {past : List (Move ℓ)} {s : Served ℓ} {r : Rotation} {stage : Stage}
    {rest : List Effect} (h : o.Follows es limit delays past s r stage rest) :
    ∃ more s', s.run more = some s' ∧ (∀ m ∈ more, m.continues ∧ o.Allows m) ∧ o.Still s' := by
  induction hn : left s rest using Nat.strong_induction_on generalizing past s r stage rest with
  | _ n ih =>
    by_cases hs : o.Still s
    · exact ⟨[], s, rfl, List.forall_mem_nil _, hs⟩
    · obtain ⟨m, hc, hm, hne⟩ : ∃ m, m.continues ∧ o.Allows m ∧ s.step m ≠ none := by
        simpa [Still] using hs
      obtain ⟨t, ht⟩ := Option.ne_none_iff_exists'.mp hne
      obtain ⟨r', stage', rest', h', hl⟩ := h.step hm ht
      obtain ⟨more, s', hr, hmore, hs'⟩ := ih _ (hn ▸ hl hc) h' rfl
      refine ⟨m :: more, s', ?_, List.forall_mem_cons.mpr ⟨⟨hc, hm⟩, hmore⟩, hs'⟩
      rw [Served.run, List.foldlM_cons, ht]
      exact hr

variable (o es limit delays) in
structure RunsOut (past : List (Move ℓ)) (s : Served ℓ) : Prop where
  /-- What is shown comes in the order of the trace. -/
  shown : o.shown past <+: o.trace es limit delays
  /-- What is under way goes on for so many moves only. -/
  bounded : ∃ bound, ∀ more s', s.run more = some s' → (∀ m ∈ more, m.continues ∧ o.Allows m) →
    more.length ≤ bound
  ends : ∃ more s', s.run more = some s' ∧ (∀ m ∈ more, m.continues ∧ o.Allows m) ∧ o.Still s'
  /-- Where nothing can go on, a client that was started has given up. -/
  gaveUp : ∀ seen, .call seen .start o.start ∈ past → o.Still s → o.GaveUp es limit delays past s

theorem Follows.runsOut {past : List (Move ℓ)} {s : Served ℓ} {r : Rotation} {stage : Stage}
    {rest : List Effect} (h : o.Follows es limit delays past s r stage rest)
    (hd : delays.length = limit) : o.RunsOut es limit delays past s := by
  refine ⟨h.shown_prefix, ⟨left s rest, ?_⟩, h.exists_still, ?_⟩
  · intro more s' hr hm
    obtain ⟨r', stage', rest', -, hl⟩ := h.run hr fun m hmem => (hm m hmem).2
    exact (Nat.le_add_right ..).trans (hl fun m hmem => (hm m hmem).1)
  · intro seen hstart hs
    obtain rfl := h.finished_of_still hs hstart
    exact h.gaveUp hs hd

theorem Follows.new (o : Outage) {id : String} {threshold : Nat} {r : Rotation}
    (h : r.Offers es limit es delays) :
    o.Follows es limit delays ([] : List (Move ℓ)) ⟨.new id threshold, ⟨r, []⟩⟩ r .ready
      (o.trace es limit delays) where
  reached := ⟨id, threshold, rfl⟩
  allows := List.forall_mem_nil _
  brings := List.forall_mem_nil _
  posted := List.forall_mem_nil _
  bare := ⟨rfl, rfl, rfl, rfl, rfl, List.forall_mem_nil _⟩
  stands := .ready rfl rfl rfl rfl rfl rfl h rfl
  shown := rfl
  rotation := rfl
  results := rfl
  started := ⟨fun hne => absurd rfl hne, fun hmem => absurd hmem List.not_mem_nil⟩

end Outage

namespace Served

variable {ℓ : Type} {isFile : FileCheck} {generated : String} {options accepted : ClientOptions}

theorem exists_ofOptions (h : options.validated isFile generated = .ok accepted) :
    ∃ es, accepted.service.mapM (Endpoint.ofService · accepted) = .ok es ∧
      es.length = accepted.service.length ∧
        ofOptions (ℓ := ℓ) isFile generated options =
          .ok ⟨.new (accepted.id.getD "") accepted.sendBackpressureThreshold,
            ⟨⟨es, 0, 0, .ofOptions accepted.retry⟩, []⟩⟩ := by
  have hfound : ∀ services ⊆ accepted.service, ∃ es : List Endpoint,
      services.mapM (Endpoint.ofService · accepted) = .ok es ∧ es.length = services.length := by
    intro services hs
    induction services with
    | nil => exact ⟨[], rfl, rfl⟩
    | cons service services ih =>
      obtain ⟨hmem, hs⟩ := List.cons_subset.mp hs
      obtain ⟨url, hurl⟩ := ClientOptions.parseService_of_validated h hmem
      obtain ⟨es, hes, hlen⟩ := ih hs
      refine ⟨.ofUrl url accepted :: es, ?_, congrArg (· + 1) hlen⟩
      rw [List.mapM_cons, Endpoint.ofService_of_parse accepted hurl, hes]
      rfl
  obtain ⟨es, hes, hlen⟩ := hfound _ (List.Subset.refl _)
  have hservice : accepted.service ≠ [] :=
    (ClientOptions.findings_eq_nil_iff.mp (ClientOptions.findings_of_validated h)).1
  have hne : es ≠ [] := by
    rintro rfl
    exact hservice (List.length_eq_zero_iff.mp hlen.symm)
  have hrotation : Rotation.ofOptions accepted = .ok ⟨es, 0, 0, .ofOptions accepted.retry⟩ := by
    rw [Rotation.ofOptions, hes]
    exact if_neg (by simpa using hne)
  refine ⟨es, hes, hlen, ?_⟩
  rw [ofOptions, h]
  change (do let r ← Rotation.ofOptions accepted; pure _) = _
  rw [hrotation]
  rfl

/-- With so many waits allowed, a client for accepted options can be started, and however an
outage goes, it tries its endpoints in order in so many rounds and one more, and gives up. The
longest wait is of 64 bits, as options are read, and 32 bits count the rounds. -/
theorem runs_out (h : options.validated isFile generated = .ok accepted) {limit : Nat}
    (hlimit : accepted.retry.maxAttempts = some limit) (hcount : limit < 2 ^ 32 - 1)
    (hmax : accepted.retry.maxDelayMs < 2 ^ 64) :
    ∃ (s : Served ℓ) (es : List Endpoint) (delays : List Duration),
      ofOptions isFile generated options = .ok s ∧
        accepted.service.mapM (Endpoint.ofService · accepted) = .ok es ∧
        es.length = accepted.service.length ∧ delays.length = limit ∧
        (Backoff.ofOptions accepted.retry).answers limit = delays.map .wait ∧
        (∃ s', s.run [.call .stopped .start 0] = some s') ∧
        ∀ (o : Outage) past s', s.run past = some s' → (∀ m ∈ past, o.Allows m) →
          o.RunsOut es limit delays past s' := by
  obtain ⟨es, hes, hlen, hs⟩ := exists_ofOptions (ℓ := ℓ) h
  have hretry : accepted.retry.findings = [] :=
    (ClientOptions.findings_eq_nil_iff.mp (ClientOptions.findings_of_validated h)).2.2.2.1
  have hsteady : (Backoff.ofOptions accepted.retry).Steady :=
    Backoff.steady_ofOptions (RetryOptions.findings_eq_nil_iff.mp hretry).2.2 hmax
  obtain ⟨delays, hd, hwaits, hanswers⟩ := hsteady.answers_limited rfl hlimit (Nat.succ_lt_of_lt_pred hcount)
  refine ⟨_, es, delays, hs, hes, hlen, hd, hwaits, ⟨_, rfl⟩, fun o past s' hr hm => ?_⟩
  have hoffers : Rotation.Offers es limit es delays ⟨es, 0, 0, .ofOptions accepted.retry⟩ :=
    ⟨rfl, rfl, rfl, by rw [hd]; exact hanswers⟩
  obtain ⟨r, stage, rest, hf, -⟩ := (Outage.Follows.new o hoffers).run hr hm
  exact hf.runsOut hd

/-- Six connections and one wait, and the client has given up. -/
theorem runs_out_threeServices : ∃ (s s' : Served Unit) (es : List Endpoint)
    (past : List (Move Unit)),
    ofOptions (fun _ => false) "x" Rotation.threeServices = .ok s ∧
      es.map (·.address) = ["amqp://a:5672", "amqps://b:6000", "amqp://a:5672"] ∧
      s.run past = some s' ∧
        Outage.GaveUp ⟨0, fun _ => "refused"⟩ es 1 [.ofMillis 1000] past s' := by
  have hv : Rotation.threeServices.validated (fun _ => false) "x" =
      .ok { Rotation.threeServices with id := "x" } := by decide +kernel
  obtain ⟨s, es, delays, hs, hes, -, -, hwaits, ⟨s₁, h₁⟩, hall⟩ :=
    runs_out (ℓ := Unit) hv rfl (by decide) (by decide)
  have haddress : (Except.map (·.map Endpoint.address)
      (Rotation.threeServices.service.mapM
        (Endpoint.ofService · { Rotation.threeServices with id := "x" }))) =
      .ok ["amqp://a:5672", "amqps://b:6000", "amqp://a:5672"] := by decide +kernel
  have hwait : (Backoff.ofOptions Rotation.threeServices.retry).answers 1 =
      [Duration.ofMillis 1000].map .wait := by decide +kernel
  obtain rfl : delays = [.ofMillis 1000] :=
    List.map_injective_iff.mpr (fun _ _ => Backoff.Answer.wait.inj) (hwaits.symm.trans hwait)
  have hstart : ∀ m ∈ [Move.call .stopped .start 0],
      (⟨0, fun _ => "refused"⟩ : Outage).Allows (m : Move Unit) := by simp [Outage.Allows]
  obtain ⟨more, s', hr, hm, hstill⟩ := (hall _ _ _ h₁ hstart).ends
  have hrun : s.run ([.call .stopped .start 0] ++ more) = some s' := by
    rw [run, List.foldlM_append]
    exact Option.bind_eq_some_iff.mpr ⟨s₁, h₁, hr⟩
  refine ⟨s, s', es, _, hs, ?_, hrun, ?_⟩
  · rw [hes] at haddress
    exact Except.ok.inj haddress
  · refine (hall _ _ _ hrun ?_).gaveUp .stopped (by simp) hstill
    exact List.forall_mem_append.mpr ⟨hstart, fun m hmem => (hm m hmem).2⟩

end Served

end PubSub
