import Mathlib.Data.List.Induction
import Mathlib.Data.List.Perm.Basic
import PubSub.Proofs.System

/-! # What is under way

Whatever the client has asked for is under way until the signal that ends it
is handled: as a request without an answer, as a callback, as a signal in the
mailbox, or as an effect that is still to be performed. Only the beginning of a
turn changes what is under way, and only there the core changes.
-/

namespace PubSub

open Session (Reply)

theorem foldlM_induction {σ α : Type} {step : σ → α → Option σ} {s : σ} {P : List α → σ → Prop}
    (nil : P [] s)
    (snoc : ∀ {xs t x t'}, xs.foldlM step s = some t → P xs t → step t x = some t' →
      P (xs ++ [x]) t')
    {xs : List α} {t : σ} (h : xs.foldlM step s = some t) : P xs t := by
  induction xs using List.reverseRecOn generalizing t with
  | nil => obtain rfl := Option.some.inj h; exact nil
  | append_singleton xs x ih =>
    rw [List.foldlM_append] at h
    obtain ⟨u, hu, h⟩ := Option.bind_eq_some_iff.mp h
    rw [List.foldlM_cons] at h
    obtain ⟨v, hv, h⟩ := Option.bind_eq_some_iff.mp h
    obtain rfl := Option.some.inj h
    exact snoc hu (ih hu) hv

/-- Something that has been asked for and ends with a signal. -/
inductive Awaited where
  | lookup
  | reply (r : Reply)
  | flush
  /-- The client tells itself that every row is renewed. -/
  | remade
  /-- The client resumes a start. -/
  | resume
  deriving DecidableEq, Repr

namespace Signal

def awaited : Signal → List Awaited
  | endpointAnswered _ => [.lookup]
  | opened connection _ => [.reply (.opened connection)]
  | closed connection => [.reply (.closed connection)]
  | sent connection id _ => [.reply (.sent connection id)]
  | subscribed connection topic _ => [.reply (.subscribed connection topic)]
  | unsubscribed connection topic _ => [.reply (.unsubscribed connection topic)]
  | timerEnded timer _ => [.reply (.timerEnded timer)]
  | flushed => [.flush]
  | subscriptionsRemade => [.remade]
  | start none => [.resume]
  | start (some _) | stop _ | work _ | delivered .. | disconnected .. | confirm .. | autoConfirm _
  | callbackFailed _ => []

/-- The signal is one that the client posts to itself in the course of a session. -/
def isOwn : Signal → Bool
  | subscriptionsRemade | start none => true
  | _ => false

@[simp]
theorem awaited_reply (r : Reply) (result : Outcome) : (r.signal result).awaited = [.reply r] := by
  cases r <;> rfl

@[simp]
theorem isOwn_reply (r : Reply) (result : Outcome) : (r.signal result).isOwn = false := by
  cases r <;> rfl

end Signal

namespace Effect

def posted : Effect → List Signal
  | post s => [s]
  | _ => []

def awaited : Effect → List Awaited
  | request .lookup => [.lookup]
  | request r => r.reply?.toList.map .reply
  | flush => [.flush]
  | post s => s.awaited
  | settle .. | finishSend .. | takeDrain | notify _ | release | publish _ => []

end Effect

def Move.performed {ℓ : Type} : Move ℓ → List Effect
  | perform e => [e]
  | _ => []

/-- The end of a callback is neither a signal of the client's own nor an answer of a service. -/
theorem Completion.signal_eq_some {c : Completion} {result : Outcome} {x : Signal}
    (h : c.signal? result = some x) : x.isOwn = false ∧ ∀ a ∈ x.awaited, a = .flush := by
  cases c with
  | failure => cases result <;> cases h; simp [Signal.isOwn, Signal.awaited]
  | flush => cases h; simp [Signal.isOwn, Signal.awaited]
  | delivery d => cases result <;> cases d <;> cases h <;> simp [Signal.isOwn, Signal.awaited]

def Job.awaited {ℓ : Type} (job : Job ℓ) : List Awaited :=
  if job.completion = .flush then [.flush] else []

namespace Client

variable {ℓ : Type} (c : Client ℓ)

@[simp]
theorem core_settle (p : PromiseId) (result : Outcome) : (c.settle p result).2.core = c.core := by
  unfold settle; split <;> rfl

@[simp]
theorem mailbox_settle (p : PromiseId) (result : Outcome) :
    (c.settle p result).2.mailbox = c.mailbox := by
  unfold settle; split <;> rfl

theorem awaited_settle (p : PromiseId) (result : Outcome) :
    (c.settle p result).1.flatMap Job.awaited = [] := by
  unfold settle
  split
  · rfl
  · rename_i l _; cases l <;> simp [Job.awaited]

@[simp]
theorem awaited_drainJobs (due : Bool) :
    (drainJobs due : List (Job ℓ)).flatMap Job.awaited = [] := by
  cases due <;> simp [drainJobs, Job.awaited]

@[simp]
theorem core_perform (e : Effect) : (c.perform e).2.core = c.core := by
  cases e <;> simp [perform, post]

theorem waiting_perform (e : Effect) :
    (c.perform e).2.mailbox.waiting = c.mailbox.waiting ++ e.posted := by
  cases e <;> simp [perform, post, Effect.posted]

theorem awaited_perform (e : Effect) :
    (c.perform e).1.flatMap Job.awaited = if e = .flush then [.flush] else [] := by
  cases e with
  | notify n => cases n <;> simp [perform, notificationJob, Job.awaited]
  | settle p result => simp [perform, awaited_settle]
  | finishSend p result => simp [perform, awaited_settle]
  | _ => simp [perform, Job.awaited]

theorem listen_eq_ok {p : PromiseId} {l : ℓ} {jobs : List (Job ℓ)} {c' : Client ℓ}
    (h : c.listen p l = .ok (jobs, c')) :
    ∃ promise result, (c.promises.getD p .new).attach l = .ok (promise, result) ∧
      jobs = (result.toList.map fun r => ⟨.settled l r, .failure⟩) ∧
      c' = { c with promises := c.promises.set p promise } := by
  unfold listen at h
  cases ha : (c.promises.getD p .new).attach l with
  | error e => rw [ha] at h; cases h
  | ok a => rw [ha] at h; cases h; exact ⟨a.1, a.2, rfl, rfl, rfl⟩

end Client

namespace Call

variable {ℓ : Type}

def signal (p : PromiseId) : Call → Signal
  | start => .start (some p)
  | stop => .stop p
  | send topic payload options =>
    let message : OutboundMessage :=
      { topic := topic, payload := payload, qos := options.qos, ttl := options.ttl,
        properties := options.properties }
    .work (.send ⟨message, p⟩)
  | subscribe topic options listener =>
    let params : SubscribeParams :=
      { topic := topic, qos := options.qos, credit := options.credit,
        autoConfirm := options.autoConfirm || options.qos = .atMostOnce,
        ttlSeconds := options.ttl.roundedSeconds }
    .work (.subscribe ⟨params, listener, p⟩)
  | unsubscribe topic ttl => .work (.unsubscribe ⟨topic, ttl = some .zero, p⟩)
  | confirm d => .confirm (d.confirmation.getD 0) p

/-- The number that the call uses up. -/
def confirms? : Call → Option ConfirmationId
  | confirm d => d.confirmation
  | _ => none

@[simp]
theorem awaited_signal (call : Call) (p : PromiseId) : (call.signal p).awaited = [] := by
  cases call <;> rfl

@[simp]
theorem isOwn_signal (call : Call) (p : PromiseId) : (call.signal p).isOwn = false := by
  cases call <;> rfl

/-- What a call makes of the window: a send takes room in it. -/
def enter (window : SendWindow) : Call → SendWindow
  | send .. => window.enter.2
  | _ => window

/-- A call that is let through makes a promise, posts its signal with it, and uses up the number
that it confirms. -/
theorem make_eq {call : Call} {c c' : Client ℓ} {p : PromiseId} (h : call.make c = .ok (p, c')) :
    p = c.promises.length ∧ c' = { c with
      promises := c.promises ++ [.new]
      mailbox := c.mailbox.post (call.signal p)
      window := call.enter c.window
      confirmed := call.confirms?.toList ++ c.confirmed } := by
  cases call with
  | start | stop => cases h; exact ⟨rfl, rfl⟩
  | send topic payload options =>
    simp only [make, Client.send] at h
    cases hv : validateDestination topic <;> cases hs : c.checkNotStopped <;>
      simp only [hv, hs] at h <;> cases h
    exact ⟨rfl, rfl⟩
  | subscribe topic options listener =>
    simp only [make, Client.subscribe] at h
    cases hv : topic.validate <;> cases hs : c.checkNotStopped <;> simp only [hv, hs] at h <;>
      cases h
    exact ⟨rfl, rfl⟩
  | unsubscribe topic ttl =>
    simp only [make, Client.unsubscribe] at h
    cases ttl with
    | none =>
      cases hv : topic.validate <;> cases hs : c.checkNotStopped <;> simp only [hv, hs] at h <;>
        cases h
      exact ⟨rfl, rfl⟩
    | some d =>
      cases hv : topic.validate <;> cases hs : c.checkNotStopped <;> simp only [hv, hs] at h <;>
        split at h <;> cases h
      next hz =>
      subst hz
      exact ⟨rfl, rfl⟩
  | confirm d =>
    simp only [make, Client.confirm] at h
    split at h
    · cases h
    · next id hd =>
      split at h <;> cases h
      simp only [signal, confirms?, hd]
      exact ⟨rfl, rfl⟩

theorem confirmation_of_make {d : Delivery} {c c' : Client ℓ} {p : PromiseId}
    (h : (confirm d).make c = .ok (p, c')) : ∃ id, d.confirmation = some id := by
  cases hd : d.confirmation with
  | none => simp [make, Client.confirm, hd] at h
  | some id => exact ⟨id, rfl⟩

end Call

namespace System

variable {ℓ : Type} {s s' : System ℓ}

/-- The signals that are waiting or that the turn is going to post, in order. -/
def queue (s : System ℓ) : List Signal :=
  s.client.mailbox.waiting ++ s.agenda.flatMap Effect.posted

def awaited (s : System ℓ) : List Awaited :=
  List.replicate s.lookups .lookup ++ s.calls.map .reply ++ s.jobs.flatMap Job.awaited ++
    s.client.mailbox.waiting.flatMap Signal.awaited ++ s.agenda.flatMap Effect.awaited

def due (s : System ℓ) (a : Awaited) : Nat := s.awaited.count a

/-- What a move asks of the system, and the system after it. -/
inductive Makes (s : System ℓ) : Move ℓ → System ℓ → Prop where
  | call {seen : ClientState} {call : Call} {p : PromiseId} {c : Client ℓ}
    (offered : call.isOffered s.received)
    (made : call.make { s.client with state := seen } = .ok (p, c))
    (new : p = s.client.promises.length) :
    Makes s (.call seen call p) { s with client := { s.client with
      promises := s.client.promises ++ [.new]
      mailbox := s.client.mailbox.post (call.signal p)
      window := call.enter s.client.window
      confirmed := call.confirms?.toList ++ s.client.confirmed } }
  | listen {p : PromiseId} {l : ℓ} {promise : Promise Unit ℓ} {result : Option Outcome}
    (given : p < s.client.promises.length)
    (attached : s.client.promises[p].attach l = .ok (promise, result)) :
    Makes s (.listen p l) { s with
      client := { s.client with promises := s.client.promises.set p promise }
      jobs := s.jobs ++ result.toList.map fun r => ⟨.settled l r, .failure⟩ }
  | answerLookup {result : Except ClientError EndpointAnswer} (asked : 0 < s.lookups) :
    Makes s (.answerLookup result)
      { s.post (.endpointAnswered result) with lookups := s.lookups - 1 }
  | answer {r : Reply} {result : Outcome} (asked : r ∈ s.calls) :
    Makes s (.answer r result) { s.post (r.signal result) with calls := s.calls.erase r }
  | deliver {k : ConnectionId} {message : InboundMessage} (asked : k ∈ s.connections) :
    Makes s (.deliver k message) (s.post (.delivered k message))
  | disconnect {k : ConnectionId} {cause : ClientError} (asked : k ∈ s.connections) :
    Makes s (.disconnect k cause) (s.post (.disconnected k cause))
  | finish {i : Nat} {job : Job ℓ} {result : Outcome} (found : s.jobs[i]? = some job) :
    Makes s (.finish i result) { s with
      client := { s.client with
        mailbox := (job.completion.signal? result).elim s.client.mailbox s.client.mailbox.post }
      jobs := s.jobs.eraseIdx i }
  | take {x : Signal} {rest : List Signal} (atRest : s.agenda = [])
    (first : s.client.mailbox.waiting = x :: rest) :
    Makes s (.take x) (s.begin x ⟨rest, true⟩)
  | perform {e : Effect} {rest : List Effect} (next : s.agenda = e :: rest) :
    Makes s (.perform e) (s.perform e rest)

theorem finish_eq (i : Nat) (completion : Completion) (result : Outcome) :
    s.finish i completion result = { s with
      client := { s.client with
        mailbox := (completion.signal? result).elim s.client.mailbox s.client.mailbox.post }
      jobs := s.jobs.eraseIdx i } := by
  unfold finish
  cases completion.signal? result <;> rfl

theorem makes_of_step {m : Move ℓ} (h : s.step m = some s') : s.Makes m s' := by
  cases m with
  | call seen call p =>
    simp only [step, Option.ite_none_right_eq_some, make] at h
    obtain ⟨hoffered, h⟩ := h
    split at h
    · cases h
    · next q c hmade =>
      simp only [Option.ite_none_right_eq_some, Option.some.injEq] at h
      obtain ⟨rfl, rfl⟩ := h
      obtain ⟨hnew, rfl⟩ := Call.make_eq hmade
      exact .call hoffered hmade hnew
  | listen p l =>
    simp only [step, Option.ite_none_right_eq_some, listen] at h
    obtain ⟨hp, h⟩ := h
    split at h
    · cases h
    · next jobs c hl =>
      obtain rfl := Option.some.inj h
      obtain ⟨promise, result, hattached, rfl, rfl⟩ := Client.listen_eq_ok _ hl
      have hget : s.client.promises.getD p .new = s.client.promises[p] := by
        simp [List.getD, List.getElem?_eq_getElem hp]
      exact .listen hp (hget ▸ hattached)
  | finish i result =>
    simp only [step] at h
    split at h
    · cases h
    · next job hj =>
      obtain rfl := Option.some.inj h
      rw [finish_eq]
      exact .finish hj
  | take x =>
    simp only [step, Option.ite_none_right_eq_some] at h
    obtain ⟨⟨ha, hx⟩, h⟩ := h
    cases hw : s.client.mailbox.waiting with
    | nil => simp [Mailbox.next, hw] at hx
    | cons y rest =>
      simp only [Mailbox.next, hw, Option.some.injEq] at hx h
      obtain rfl := h
      exact hx ▸ .take ha hw
  | perform e =>
    simp only [step] at h
    split at h
    · cases h
    · next e' rest ha =>
      simp only [Option.ite_none_right_eq_some, Option.some.injEq] at h
      obtain ⟨rfl, rfl⟩ := h
      exact .perform ha
  | _ =>
    simp only [step, Option.ite_none_right_eq_some, Option.some.injEq] at h
    obtain ⟨hasked, rfl⟩ := h
    constructor
    exact hasked

theorem step_of_makes {m : Move ℓ} (h : s.Makes m s') : s.step m = some s' := by
  cases h with
  | call hoffered hmade => simp [step, hoffered, make, hmade, (Call.make_eq hmade).2]
  | listen hp hattached => simp [step, hp, listen, Client.listen, hattached]
  | finish hj => simp [step, hj, finish_eq]
  | take ha hw => simp [step, ha, Mailbox.next, hw]
  | perform ha => simp [step, ha]
  | answerLookup hasked | answer hasked | deliver hasked | disconnect hasked =>
    exact if_pos hasked

theorem step_eq_some {m : Move ℓ} : s.step m = some s' ↔ s.Makes m s' :=
  ⟨makes_of_step, step_of_makes⟩

theorem step_call {seen : ClientState} {call : Call} {p : PromiseId}
    (h : s.step (.call seen call p) = some s') :
    call.isOffered s.received ∧ ∃ c, call.make { s.client with state := seen } = .ok (p, c) ∧
      s' = { s with client := { c with state := s.client.state } } := by
  cases step_eq_some.mp h with
  | call hoffered hmade => exact ⟨hoffered, _, hmade, by rw [(Call.make_eq hmade).2]⟩

theorem step_take {x : Signal} (h : s.step (.take x) = some s') :
    s.agenda = [] ∧ ∃ rest, s.client.mailbox.waiting = x :: rest ∧ s' = s.begin x ⟨rest, true⟩ := by
  cases step_eq_some.mp h with
  | take ha hw => exact ⟨ha, _, hw, rfl⟩

theorem core_take {x : Signal} (h : s.step (.take x) = some s') :
    s'.client.core = (s.client.core.handle x).core := by
  cases step_eq_some.mp h
  rfl

theorem step_perform {e : Effect} (h : s.step (.perform e) = some s') :
    ∃ rest, s.agenda = e :: rest ∧ s' = s.perform e rest := by
  cases step_eq_some.mp h with
  | perform ha => exact ⟨_, ha, rfl⟩

theorem core_step {m : Move ℓ} (h : s.step m = some s') (hm : ∀ x, m ≠ .take x) :
    s'.client.core = s.client.core := by
  cases step_eq_some.mp h with
  | take => exact absurd rfl (hm _)
  | perform => exact Client.core_perform ..
  | _ => rfl

theorem agenda_step {m : Move ℓ} (h : s.step m = some s') (hm : ∀ x, m ≠ .take x) :
    s.agenda = m.performed ++ s'.agenda := by
  cases step_eq_some.mp h with
  | take => exact absurd rfl (hm _)
  | perform ha => exact ha
  | _ => rfl

def brought (s : System ℓ) : Move ℓ → List Signal
  | .call _ call p => [call.signal p]
  | .answerLookup result => [.endpointAnswered result]
  | .answer r result => [r.signal result]
  | .deliver k message => [.delivered k message]
  | .disconnect k cause => [.disconnected k cause]
  | .finish i result => (s.jobs[i]?.bind (·.completion.signal? result)).toList
  | .listen .. | .take _ | .perform _ => []

/-- What comes from outside is not the client's own, and only an answer brings what it ends. -/
theorem of_mem_brought {m : Move ℓ} {x : Signal} (hx : x ∈ s.brought m) : x.isOwn = false ∧
    (.lookup ∈ x.awaited → ∃ result, m = .answerLookup result) ∧
      ∀ r, .reply r ∈ x.awaited → ∃ result, x = r.signal result ∧ m = .answer r result := by
  cases m with
  | call seen call p =>
    obtain rfl := List.mem_singleton.mp hx
    simp
  | answerLookup result =>
    obtain rfl := List.mem_singleton.mp hx
    exact ⟨rfl, fun _ => ⟨result, rfl⟩, by simp [Signal.awaited]⟩
  | answer r result =>
    obtain rfl := List.mem_singleton.mp hx
    refine ⟨Signal.isOwn_reply r result, by simp, fun r' hr => ⟨result, ?_⟩⟩
    obtain rfl : r' = r := by simpa using hr
    exact ⟨rfl, rfl⟩
  | deliver | disconnect =>
    obtain rfl := List.mem_singleton.mp hx
    simp [Signal.isOwn, Signal.awaited]
  | finish i result =>
    obtain ⟨job, -, hsignal⟩ := Option.bind_eq_some_iff.mp (Option.mem_toList.mp hx)
    obtain ⟨hown, hflush⟩ := Completion.signal_eq_some hsignal
    exact ⟨hown, fun h => absurd (hflush _ h) nofun, fun r h => absurd (hflush _ h) nofun⟩
  | listen | take | perform => cases hx

theorem waiting_step {m : Move ℓ} (h : s.step m = some s') (hm : ∀ x, m ≠ .take x) :
    s'.client.mailbox.waiting =
      s.client.mailbox.waiting ++ s.brought m ++ m.performed.flatMap Effect.posted := by
  cases step_eq_some.mp h with
  | @finish i job result hj =>
    cases hx : job.completion.signal? result <;> simp [brought, hj, hx, Move.performed]
  | take => exact absurd rfl (hm _)
  | perform => simp [brought, Move.performed, System.perform, Client.waiting_perform]
  | _ => simp [brought, Move.performed, post, Client.post]

theorem due_post (x : Signal) (a : Awaited) : (s.post x).due a = s.due a + x.awaited.count a := by
  simp only [due, awaited, post, Client.post, Mailbox.waiting_post, List.flatMap_append,
    List.flatMap_singleton, List.count_append]
  omega

/-- What a callback that has ended was awaited for is under way in its signal. -/
theorem due_finish {i : Nat} {job : Job ℓ} (hj : s.jobs[i]? = some job) (result : Outcome)
    (a : Awaited) : (s.finish i job.completion result).due a = s.due a := by
  have hi : i < s.jobs.length := (List.getElem?_eq_some_iff.mp hj).1
  have hg : s.jobs[i] = job := (List.getElem?_eq_some_iff.mp hj).2
  have hp : (s.jobs.flatMap Job.awaited).count a =
      job.awaited.count a + ((s.jobs.eraseIdx i).flatMap Job.awaited).count a := by
    rw [← hg, ← List.count_append]
    exact ((List.getElem_cons_eraseIdx_perm hi).symm.flatMap_right Job.awaited).count_eq a
  have hd : s.due a = { s with jobs := s.jobs.eraseIdx i }.due a + job.awaited.count a := by
    simp only [due, awaited, List.count_append, hp]
    omega
  rw [hd, finish]
  cases hc : job.completion with
  | failure => cases result <;> simp [Completion.signal?, due_post, Signal.awaited, Job.awaited, hc]
  | flush => simp [Completion.signal?, due_post, Signal.awaited, Job.awaited, hc]
  | delivery d =>
    cases result <;> cases d <;>
      simp [Completion.signal?, due_post, Signal.awaited, Job.awaited, hc]

theorem due_perform {e : Effect} {rest : List Effect} (ha : s.agenda = e :: rest) (a : Awaited) :
    (s.perform e rest).due a = s.due a := by
  have hj : ((s.client.perform e).1.flatMap Job.awaited).count a =
      (if e = .flush then [Awaited.flush] else []).count a := by rw [Client.awaited_perform]
  -- What an effect asks for is afterwards a request, a callback, or a signal.
  have he : e.awaited.count a = (if e = .request .lookup then [Awaited.lookup] else []).count a +
      (e.reply?.toList.map Awaited.reply).count a +
      (if e = .flush then [Awaited.flush] else []).count a +
      (e.posted.flatMap Signal.awaited).count a := by
    cases e with
    | request r => cases r <;> simp [Effect.awaited, Effect.reply?, Request.reply?, Effect.posted]
    | _ => simp [Effect.awaited, Effect.reply?, Effect.posted]
  have hl : (List.replicate (s.perform e rest).lookups Awaited.lookup).count a =
      (List.replicate s.lookups Awaited.lookup).count a +
        (if e = .request .lookup then [Awaited.lookup] else []).count a := by
    rw [← List.count_append]
    by_cases h : e = .request .lookup <;> simp [perform, h, List.replicate_add]
  have hw : (s.perform e rest).client.mailbox.waiting =
      s.client.mailbox.waiting ++ e.posted := Client.waiting_perform ..
  have hc : (s.perform e rest).calls = s.calls ++ e.reply?.toList := rfl
  have hb : (s.perform e rest).jobs = s.jobs ++ (s.client.perform e).1 := rfl
  have hr : (s.perform e rest).agenda = rest := rfl
  simp only [due, awaited, hl, hw, hc, hb, hr, ha, List.map_append, List.flatMap_append,
    List.flatMap_cons, List.count_append, hj, he]
  omega

theorem due_step {m : Move ℓ} (h : s.step m = some s') (hm : ∀ x, m ≠ .take x) (a : Awaited) :
    s'.due a = s.due a := by
  cases step_eq_some.mp h with
  | call =>
    simp only [due, awaited, Mailbox.waiting_post, List.flatMap_append, List.flatMap_singleton,
      Call.awaited_signal, List.append_nil]
  | @listen p l promise result _ _ =>
    have hj : (result.toList.map fun r => (⟨.settled l r, .failure⟩ : Job ℓ)).flatMap
        Job.awaited = [] := by cases result <;> simp [Job.awaited]
    simp only [due, awaited, List.flatMap_append, hj, List.append_nil]
  | answerLookup hn =>
    have hl : List.replicate s.lookups Awaited.lookup =
        .lookup :: List.replicate (s.lookups - 1) .lookup := by
      rw [← List.replicate_succ, Nat.sub_add_cancel hn]
    simp only [due, awaited, hl, post, Client.post, Mailbox.waiting_post, List.flatMap_append,
      List.flatMap_singleton, Signal.awaited, List.count_append, List.count_cons, List.count_nil]
    omega
  | @answer r result hr =>
    have hc : (s.calls.map Awaited.reply).count a =
        [Awaited.reply r].count a + ((s.calls.erase r).map Awaited.reply).count a := by
      rw [((List.perm_cons_erase hr).map Awaited.reply).count_eq, List.map_cons,
        ← List.count_append]
      rfl
    simp only [due, awaited, post, Client.post, Mailbox.waiting_post, List.flatMap_append,
      List.flatMap_singleton, Signal.awaited_reply, List.count_append, hc]
    omega
  | deliver | disconnect =>
    rw [due_post]
    rfl
  | finish hj => rw [← finish_eq, due_finish hj]
  | take => exact absurd rfl (hm _)
  | perform ha => exact due_perform ha a

/-- A turn takes away what its signal ends and adds what its effects ask for. -/
theorem due_take {x : Signal} (h : s.step (.take x) = some s') (a : Awaited) :
    s'.due a + x.awaited.count a =
      s.due a + ((s.client.core.handle x).effects.flatMap Effect.awaited).count a := by
  obtain ⟨ha, rest, hw, rfl⟩ := step_take h
  simp only [due, awaited, begin, ha, hw, List.flatMap_cons, List.flatMap_nil, List.append_nil,
    List.count_append]
  omega

/-- What comes from outside is posted at the end of the mailbox, before the rest of the turn. -/
theorem queue_step {m : Move ℓ} (h : s.step m = some s') (hm : ∀ x, m ≠ .take x) :
    s'.queue =
      s.client.mailbox.waiting ++ (s.brought m ++ s.agenda.flatMap Effect.posted) := by
  rw [queue, waiting_step h hm, agenda_step h hm, List.flatMap_append, List.append_assoc,
    List.append_assoc]

/-- An answer to a lookup comes in only where one is under way. -/
theorem due_lookup_pos {m : Move ℓ} (h : s.step m = some s') {x : Signal} (hx : x ∈ s.brought m)
    (hl : .lookup ∈ x.awaited) : 0 < s.due .lookup := by
  obtain ⟨result, rfl⟩ := (of_mem_brought hx).2.1 hl
  cases step_eq_some.mp h with
  | answerLookup hn =>
    simp only [due, awaited, List.count_append, List.count_replicate_self]
    omega

@[simp]
theorem run_nil : s.run [] = some s := rfl

theorem run_append (xs ys : List (Move ℓ)) :
    s.run (xs ++ ys) = (s.run xs).bind (·.run ys) := List.foldlM_append ..

theorem run_cons (m : Move ℓ) (ms : List (Move ℓ)) :
    s.run (m :: ms) = (s.step m).bind (·.run ms) := List.foldlM_cons ..

theorem run_induction {P : List (Move ℓ) → System ℓ → Prop} (new : P [] s)
    (step : ∀ {ms t m t'}, s.run ms = some t → P ms t → t.step m = some t' → P (ms ++ [m]) t')
    {ms : List (Move ℓ)} {t : System ℓ} (h : s.run ms = some t) : P ms t :=
  foldlM_induction new step h

end System

/-- The system that a client gets to by the moves of its past. -/
def Reached {ℓ : Type} (past : List (Move ℓ)) (s : System ℓ) : Prop :=
  ∃ id threshold, (System.new id threshold).run past = some s

namespace Reached

variable {ℓ : Type} {s s' : System ℓ} {past : List (Move ℓ)}

theorem run (h : Reached past s) {more : List (Move ℓ)} (hr : s.run more = some s') :
    Reached (past ++ more) s' := by
  obtain ⟨id, threshold, h⟩ := h
  refine ⟨id, threshold, ?_⟩
  rw [System.run_append, h]
  exact hr

theorem step (h : Reached past s) {m : Move ℓ} (hs : s.step m = some s') :
    Reached (past ++ [m]) s' :=
  h.run (by rw [System.run_cons, hs]; rfl)

theorem induction {P : List (Move ℓ) → System ℓ → Prop}
    (new : ∀ id threshold, P [] (.new id threshold))
    (step : ∀ {past s m s'}, Reached past s → P past s → s.step m = some s' →
      P (past ++ [m]) s') (h : Reached past s) : P past s := by
  obtain ⟨id, threshold, h⟩ := h
  exact System.run_induction (new id threshold) (fun hr => step ⟨id, threshold, hr⟩) h

/-- What changes in turns is preserved when a turn begins, and by whatever else happens. -/
theorem turn_induction {P : List (Move ℓ) → System ℓ → Prop}
    (new : ∀ id threshold, P [] (.new id threshold))
    (move : ∀ {past s m s'}, Reached past s → P past s → s.step m = some s' →
      (∀ x, m ≠ .take x) → P (past ++ [m]) s')
    (take : ∀ {past s x s'}, Reached past s → P past s → s.step (.take x) = some s' →
      P (past ++ [.take x]) s') (h : Reached past s) : P past s := by
  refine h.induction new fun {_ _ m _} hr ih hs => ?_
  cases m with
  | take x => exact take hr ih hs
  | _ => exact move hr ih hs (by simp)

end Reached

end PubSub
