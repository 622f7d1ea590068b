import PubSub.Proofs.Calls
import PubSub.Proofs.Rotations
import PubSub.Proofs.Validated

/-! # A client on a list of endpoints

Where a client is given a list of endpoints, a rotation answers its lookups. The
rotation is used at the moment a request is performed; its answer comes in
later, as the answer to the lookup. So an answer is on its way from the lookup
in the agenda until its signal is handled.
-/

namespace PubSub

/-- What the client is told. A wait that is no duration breaks the lookup down. -/
def Rotation.Answer.result? : Answer → Option (Except ClientError EndpointAnswer)
  | found endpoint => some (.ok (.found endpoint))
  | wait delay => some (.ok (.retryAfter delay))
  | exhausted attempts => some (.error (.retryLimit attempts))
  | overflow => none

/-- The use of the endpoints that an effect is. -/
def Effect.use? : Effect → Option Rotation.Use
  | request .lookup => some .lookup
  | request (.report endpoint) => some (.report endpoint)
  | _ => none

/-- The service that answers lookups from a rotation. -/
structure EndpointService where
  rotation : Rotation
  /-- The answers that have not come in yet, in order. -/
  answers : List Rotation.Answer := []

namespace EndpointService

def serve (v : EndpointService) (uses : List Rotation.Use) : EndpointService :=
  ⟨v.rotation.after uses, v.answers ++ v.rotation.answers uses⟩

/-- The service after a move, if the service allows the move. -/
def move {ℓ : Type} (v : EndpointService) : Move ℓ → Option EndpointService
  | .perform e =>
    if e = .request .lookup ∧ v.rotation.next.1 = .overflow then none
    else some (v.serve e.use?.toList)
  | .answerLookup result =>
    match v.answers with
    | [] => none
    | a :: answers => if a.result? = some result then some { v with answers := answers } else none
  | _ => some v

@[simp]
theorem serve_nil (v : EndpointService) : v.serve [] = v := by
  rw [serve, Rotation.answers, List.append_nil]
  rfl

theorem serve_append (v : EndpointService) (uses more : List Rotation.Use) :
    v.serve (uses ++ more) = (v.serve uses).serve more := by
  simp only [serve, Rotation.after_append, Rotation.answers_append, List.append_assoc]

end EndpointService

/-- A client on a list of endpoints, and everything that is under way around it. -/
structure Served (ℓ : Type) where
  system : System ℓ
  service : EndpointService

namespace Served

variable {ℓ : Type}

/-- A new client for options, on the endpoints that the options list. -/
def ofOptions (isFile : FileCheck) (generated : String) (o : ClientOptions) :
    Except ClientError (Served ℓ) := do
  let o ← o.validated isFile generated
  let rotation ← Rotation.ofOptions o
  pure ⟨.new (o.id.getD "") o.sendBackpressureThreshold, ⟨rotation, []⟩⟩

def step (s : Served ℓ) (m : Move ℓ) : Option (Served ℓ) := do
  let system ← s.system.step m
  let service ← s.service.move m
  pure ⟨system, service⟩

def run (s : Served ℓ) (moves : List (Move ℓ)) : Option (Served ℓ) := moves.foldlM step s

variable {s s' : Served ℓ} {m : Move ℓ}

theorem step_eq_some : s.step m = some s' ↔
    s.system.step m = some s'.system ∧ s.service.move m = some s'.service := by
  simp only [step, Option.bind_eq_bind, Option.bind_eq_some_iff, Option.pure_def,
    Option.some.injEq]
  constructor
  · rintro ⟨system, hs, service, hv, rfl⟩
    exact ⟨hs, hv⟩
  · rintro ⟨hs, hv⟩
    exact ⟨_, hs, _, hv, rfl⟩

end Served

def Signal.lookup? : Signal → Option (Except ClientError EndpointAnswer)
  | endpointAnswered result => some result
  | _ => none

theorem Signal.lookup?_of_not_mem {x : Signal} (h : .lookup ∉ x.awaited) : x.lookup? = none := by
  cases x with
  | endpointAnswered result => simp [awaited] at h
  | _ => rfl

namespace Served

variable {ℓ : Type} {s s' : Served ℓ} {m : Move ℓ} {past : List (Move ℓ)}

/-- The service once the turn is over. -/
def ahead (s : Served ℓ) : EndpointService :=
  s.service.serve (s.system.agenda.filterMap Effect.use?)

/-- What the lookups that have not been handled are answered, in order. -/
def results (s : Served ℓ) : List (Option (Except ClientError EndpointAnswer)) :=
  (s.system.client.mailbox.waiting.filterMap Signal.lookup?).map some ++
    s.ahead.answers.map (·.result?)

theorem ahead_of_atRest (h : s.system.AtRest) : s.ahead = s.service := by
  have ha : s.system.agenda = [] := h
  rw [ahead, ha, List.filterMap_nil, EndpointService.serve_nil]

theorem lookup?_of_posted (hc : s.system.Coherent past) (hs : s.system.step m = some s'.system)
    (hl : ∀ result, m ≠ .answerLookup result) {x : Signal}
    (hx : x ∈ s.system.brought m ++ m.performed.flatMap Effect.posted) : x.lookup? = none := by
  apply Signal.lookup?_of_not_mem
  intro hm
  rcases List.mem_append.mp hx with hx | hx
  · obtain ⟨result, rfl⟩ := (System.of_mem_brought hx).2.1 hm
    exact hl result rfl
  · exact absurd (Signal.awaited_of_isOwn (hc.isOwn_of_performed hs hx) _ hm) (by simp)

/-- What is on the way stays on the way until a turn begins. -/
theorem results_step (hc : s.system.Coherent past) (h : s.step m = some s')
    (hm : ∀ x, m ≠ .take x) :
    s'.results = s.results ∧ s'.ahead.rotation = s.ahead.rotation := by
  obtain ⟨hs, hv⟩ := step_eq_some.mp h
  have hagenda := System.agenda_step hs hm
  -- Where no answer comes in, only what is ahead of the service matters.
  have keep (hl : ∀ result, m ≠ .answerLookup result) (ha : s'.ahead = s.ahead) :
      s'.results = s.results ∧ s'.ahead.rotation = s.ahead.rotation := by
    have hnone := List.filterMap_eq_nil_iff.mpr fun _ => lookup?_of_posted hc hs hl
    refine ⟨?_, by rw [ha]⟩
    rw [results, results, ha, System.waiting_step hs hm, List.append_assoc, List.filterMap_append,
      hnone, List.append_nil]
  cases m with
  | take x => exact absurd rfl (hm x)
  | perform e =>
    obtain ⟨rest, ha, he⟩ := System.step_perform hs
    rw [EndpointService.move, Option.ite_none_left_eq_some, Option.some.injEq] at hv
    have huses : (e :: rest).filterMap Effect.use? =
        e.use?.toList ++ rest.filterMap Effect.use? := by
      cases hu : e.use? <;> simp [hu]
    refine keep (by simp) ?_
    rw [ahead, ahead, ha, huses, EndpointService.serve_append, hv.2, he]
    rfl
  | answerLookup result =>
    simp only [EndpointService.move] at hv
    split at hv
    · cases hv
    · next a answers ha =>
      rw [Option.ite_none_right_eq_some, Option.some.injEq] at hv
      obtain ⟨hr, hv⟩ := hv
      have hagenda : s'.system.agenda = s.system.agenda := hagenda.symm
      have hw : s'.system.client.mailbox.waiting =
          s.system.client.mailbox.waiting ++ [.endpointAnswered result] := by
        simp [System.waiting_step hs hm, System.brought, Move.performed]
      refine ⟨?_, by rw [ahead, ahead, hagenda, ← hv]; rfl⟩
      rw [results, results, hw, ahead, ahead, hagenda, ← hv, EndpointService.serve,
        EndpointService.serve, ha]
      simp [Signal.lookup?, hr]
  | call | listen | answer | deliver | disconnect | finish =>
    refine keep (by simp) ?_
    rw [ahead, ahead, hagenda, ← Option.some.inj hv]
    rfl

theorem results_take {x : Signal} (h : s.step (.take x) = some s') :
    ∃ results, s.results = x.lookup?.toList.map some ++ results ∧
      s'.ahead.rotation = s.ahead.rotation.after
        ((s.system.client.core.handle x).effects.filterMap Effect.use?) ∧
      s'.results = results ++ (s.ahead.rotation.answers
        ((s.system.client.core.handle x).effects.filterMap Effect.use?)).map (·.result?) := by
  obtain ⟨hs, hv⟩ := step_eq_some.mp h
  obtain ⟨hrest, rest, hw, he⟩ := System.step_take hs
  have hservice : s'.service = s.service := (Option.some.inj hv).symm
  refine ⟨(rest.filterMap Signal.lookup?).map some ++ s.service.answers.map (·.result?), ?_, ?_, ?_⟩
  · rw [results, ahead_of_atRest hrest, hw]
    cases hx : x.lookup? <;> simp [hx]
  · rw [ahead_of_atRest hrest, ahead, hservice, he]
    rfl
  · rw [results, ahead_of_atRest hrest, ahead, hservice, he]
    simp [System.begin, EndpointService.serve]

end Served

end PubSub
