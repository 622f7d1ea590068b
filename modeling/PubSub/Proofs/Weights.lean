import Mathlib.Algebra.BigOperators.Group.List.Basic
import Mathlib.Algebra.GroupWithZero.Nat
import PubSub.Proofs.Run

/-! # How much is under way

What is under way goes on: an effect is performed, a request is answered, a
callback ends. Every such move makes what is under way less by weight, so
between two turns there are only so many of them. The weight of a signal is a
bound on what the turn of a client that is not connected makes of it.
-/

namespace PubSub

open Session (Reply)

/-- What is under way goes on by the move; it does not come from outside. -/
def Move.continues {ℓ : Type} : Move ℓ → Bool
  | take _ | perform _ | answer .. | answerLookup _ | finish .. => true
  | call .. | listen .. | deliver .. | disconnect .. => false

/-- A timer asks for another lookup, work and confirmations settle a promise. -/
def Signal.weight : Signal → Nat
  | timerEnded .. => 5
  | work _ => 4
  | confirm .. => 3
  | autoConfirm _ => 2
  | _ => 1

def Session.Reply.weight : Reply → Nat
  | timerEnded _ => 6
  | _ => 2

theorem Session.Reply.weight_signal (r : Reply) (result : Outcome) :
    (r.signal result).weight + 1 = r.weight := by
  cases r <;> rfl

def Completion.weight : Completion → Nat
  | failure => 1
  | flush => 2
  | delivery _ => 3

theorem Completion.weight_signal? (c : Completion) :
    ((c.signal? (.ok ())).toList.map Signal.weight).sum + 1 ≤ c.weight := by
  cases c with
  | failure | flush => decide
  | delivery acknowledge => cases acknowledge <;> simp [signal?, weight, Signal.weight]

def Effect.weight : Effect → Nat
  | request .lookup => 3
  | request r => 1 + (r.reply?.toList.map Reply.weight).sum
  | settle .. => 2
  | finishSend .. => 3
  | takeDrain => 2
  | notify (.delivery ..) => 4
  | notify _ => 2
  | flush => 3
  | release => 1
  | publish _ => 1
  | post x => 1 + x.weight

namespace Client

variable {ℓ : Type} (c : Client ℓ)

theorem weight_settle (p : PromiseId) (result : Outcome) :
    ((c.settle p result).1.map (·.completion.weight)).sum ≤ 1 := by
  unfold settle
  split
  · simp
  · next l _ => cases l <;> simp [Completion.weight]

theorem weight_drainJobs (due : Bool) :
    ((drainJobs due : List (Job ℓ)).map (·.completion.weight)).sum ≤ 1 := by
  cases due <;> simp [drainJobs, Completion.weight]

theorem weight_perform (e : Effect) :
    ((c.perform e).1.map (·.completion.weight)).sum + (e.posted.map Signal.weight).sum +
      (e.reply?.toList.map Reply.weight).sum + 2 * (if e = .request .lookup then 1 else 0) <
        e.weight := by
  cases e with
  | request r => cases r <;> simp [perform, Effect.posted, Effect.reply?, Request.reply?,
      Effect.weight, Reply.weight]
  | settle p result =>
    have h := c.weight_settle p result
    simp only [perform, Effect.posted, Effect.reply?, Effect.weight, List.map_nil, List.sum_nil,
      Option.toList_none, reduceCtorEq, if_false]
    omega
  | finishSend p result =>
    have hs := c.weight_settle p result
    have hd := weight_drainJobs (ℓ := ℓ) (c.settle p result).2.window.leave.1
    simp only [perform, Effect.posted, Effect.reply?, Effect.weight, List.map_append,
      List.sum_append, List.map_nil, List.sum_nil, Option.toList_none, reduceCtorEq, if_false]
    omega
  | takeDrain =>
    have hd := weight_drainJobs (ℓ := ℓ) c.window.takeDrain.1
    simp only [perform, Effect.posted, Effect.reply?, Effect.weight, List.map_nil, List.sum_nil,
      Option.toList_none, reduceCtorEq, if_false]
    omega
  | notify n => cases n <;> simp [perform, notificationJob, Effect.posted, Effect.reply?,
      Effect.weight, Completion.weight]
  | flush | release | publish state | post x => simp [perform, Effect.posted, Effect.reply?,
      Effect.weight, Completion.weight]

end Client

namespace System

variable {ℓ : Type} {s s' : System ℓ}

def weight (s : System ℓ) : Nat :=
  (s.client.mailbox.waiting.map Signal.weight).sum + (s.agenda.map Effect.weight).sum +
    (s.calls.map Reply.weight).sum + 2 * s.lookups + (s.jobs.map (·.completion.weight)).sum

theorem weight_post (x : Signal) : (s.post x).weight = s.weight + x.weight := by
  simp only [weight, post, Client.post, Mailbox.waiting_post, List.map_append, List.sum_append,
    List.map_singleton, List.sum_singleton]
  omega

theorem weight_finish {i : Nat} {job : Job ℓ} (hj : s.jobs[i]? = some job) :
    (s.finish i job.completion (.ok ())).weight < s.weight := by
  obtain ⟨hi, rfl⟩ := List.getElem?_eq_some_iff.mp hj
  have hjobs : (s.jobs.map (·.completion.weight)).sum = s.jobs[i].completion.weight +
      ((s.jobs.eraseIdx i).map (·.completion.weight)).sum :=
    ((List.getElem_cons_eraseIdx_perm hi).symm.map _).sum_nat
  have hs := s.jobs[i].completion.weight_signal?
  have hw : s.weight =
      { s with jobs := s.jobs.eraseIdx i }.weight + s.jobs[i].completion.weight := by
    simp only [weight, hjobs]
    omega
  unfold finish
  dsimp only
  split
  · next hn => simp [hn] at hs; omega
  · next x hx =>
    rw [weight_post]
    simp [hx] at hs
    omega

theorem weight_performed {e : Effect} {rest : List Effect} (ha : s.agenda = e :: rest) :
    (s.perform e rest).weight < s.weight := by
  have he := s.client.weight_perform e
  have hw : (s.perform e rest).client.mailbox.waiting = s.client.mailbox.waiting ++ e.posted :=
    Client.waiting_perform ..
  have hc : (s.perform e rest).calls = s.calls ++ e.reply?.toList := rfl
  have hj : (s.perform e rest).jobs = s.jobs ++ (s.client.perform e).1 := rfl
  have hl : (s.perform e rest).lookups = s.lookups + if e = .request .lookup then 1 else 0 := rfl
  have hr : (s.perform e rest).agenda = rest := rfl
  simp only [weight, hw, hc, hj, hl, hr, ha, List.map_append, List.map_cons, List.sum_append,
    List.sum_cons]
  omega

/-- Where callbacks do not fail, whatever goes on between turns makes less of what is under way. -/
theorem weight_step {m : Move ℓ} (h : s.step m = some s') (hm : m.continues)
    (htake : ∀ x, m ≠ .take x) (hok : ∀ i result, m = .finish i result → result = .ok ()) :
    s'.weight < s.weight := by
  cases step_eq_some.mp h with
  | take => exact absurd rfl (htake _)
  | perform ha => exact weight_performed ha
  | @finish i job result hj =>
    obtain rfl := hok i result rfl
    rw [← finish_eq]
    exact weight_finish hj
  | @answer r result hr =>
    have hc : (s.calls.map Reply.weight).sum =
        r.weight + ((s.calls.erase r).map Reply.weight).sum :=
      ((List.perm_cons_erase hr).map _).sum_nat
    have hs := r.weight_signal result
    have hp := weight_post (s := s) (r.signal result)
    simp only [weight, post] at hp ⊢
    omega
  | @answerLookup result hl =>
    have hp := weight_post (s := s) (.endpointAnswered result)
    simp only [weight, post, Signal.weight] at hp ⊢
    omega
  | call | listen | deliver | disconnect => cases hm

theorem weight_take {x : Signal} (h : s.step (.take x) = some s') : s'.weight + x.weight =
    s.weight + ((s.client.core.handle x).effects.map Effect.weight).sum := by
  obtain ⟨ha, rest, hw, rfl⟩ := step_take h
  simp only [weight, begin, ha, hw, List.map_nil, List.map_cons, List.sum_nil, List.sum_cons]
  omega

end System

end PubSub
