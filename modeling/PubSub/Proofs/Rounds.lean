import PubSub.Proofs.Calls
import PubSub.Proofs.Connections

/-! # Subscribes go in rounds

On the current connection a subscribe to a topic is asked for only after every
other one to the topic has been answered and its answer handled. So the calls,
the answers and the turns of the answers come in rounds, and an answer that is
handled tells of the call that was made last.
-/

namespace PubSub

open Session (Reply)

inductive Exchange where
  | asked (params : SubscribeParams)
  | answered (result : Outcome)
  | handled (result : Outcome)

/-- A subscribe is asked for, it is answered, and its answer is handled. -/
def Exchange.round (params : SubscribeParams) (result : Outcome) : List Exchange :=
  [asked params, answered result, handled result]

def Exchange.rounds (rs : List (SubscribeParams × Outcome)) : List Exchange :=
  rs.flatMap fun r => round r.1 r.2

section Moves

variable {ℓ : Type} (k : ConnectionId) (topic : Topic)

def Move.exchange? : Move ℓ → Option Exchange
  | perform (.request (.subscribe j params)) =>
    if j = k ∧ params.topic = topic then some (.asked params) else none
  | answer (.subscribed j t) result =>
    if j = k ∧ t = topic then some (.answered result) else none
  | take (.subscribed j t result) =>
    if j = k ∧ t = topic then some (.handled result) else none
  | _ => none

def exchanges (past : List (Move ℓ)) : List Exchange := past.filterMap (Move.exchange? k topic)

theorem exchanges_append (past : List (Move ℓ)) (m : Move ℓ) :
    exchanges k topic (past ++ [m]) = exchanges k topic past ++ (m.exchange? k topic).toList := by
  cases h : m.exchange? k topic <;> simp [exchanges, h]

variable {k topic} in
theorem Move.eq_perform_of_asked {m : Move ℓ} {params : SubscribeParams}
    (h : m.exchange? k topic = some (.asked params)) :
    params.topic = topic ∧ m = .perform (.request (.subscribe k params)) := by
  unfold exchange? at h
  split at h
  · obtain ⟨⟨rfl, rfl⟩, heq⟩ := Option.ite_none_right_eq_some.mp h
    cases heq
    exact ⟨rfl, rfl⟩
  · cases (Option.ite_none_right_eq_some.mp h).2
  · cases (Option.ite_none_right_eq_some.mp h).2
  · cases h

def Signal.answer? : Signal → Option Outcome
  | subscribed j t result => if j = k ∧ t = topic then some result else none
  | _ => none

theorem Signal.count_awaited (x : Signal) :
    x.awaited.count (.reply (.subscribed k topic)) = (x.answer? k topic).toList.length := by
  cases x with
  | subscribed j t result =>
    by_cases h : j = k ∧ t = topic
    · simp [awaited, answer?, h]
    · simp [awaited, answer?, h]
  | start p => cases p <;> simp [awaited, answer?]
  | _ => simp [awaited, answer?]

namespace System

variable {s s' : System ℓ} {past : List (Move ℓ)} {m : Move ℓ}

/-- The answers to subscribes that wait to be handled. -/
def answers (s : System ℓ) : List Outcome :=
  s.client.mailbox.waiting.filterMap (Signal.answer? k topic)

theorem answers_post (s : System ℓ) (x : Signal) :
    (s.post x).answers k topic = s.answers k topic ++ (x.answer? k topic).toList := by
  rw [answers, post, Client.post, Mailbox.waiting_post, List.filterMap_append]
  cases h : x.answer? k topic <;> simp [answers, h]

theorem calls_answers_le (s : System ℓ) :
    s.calls.count (.subscribed k topic) + (s.answers k topic).length +
      (s.agenda.flatMap Effect.awaited).count (.reply (.subscribed k topic)) ≤
        s.due (.reply (.subscribed k topic)) := by
  have hcalls : s.calls.count (.subscribed k topic) ≤
      (s.calls.map Awaited.reply).count (.reply (.subscribed k topic)) := List.count_le_count_map
  have hanswers (xs : List Signal) :
      (xs.flatMap Signal.awaited).count (.reply (.subscribed k topic)) =
        (xs.filterMap (Signal.answer? k topic)).length := by
    induction xs with
    | nil => rfl
    | cons x xs ih =>
      rw [List.flatMap_cons, List.count_append, ih, x.count_awaited]
      cases h : x.answer? k topic <;> simp [h, Nat.add_comm]
  simp only [due, awaited, List.count_append, hanswers, answers]
  omega

/-- What a move changes of the calls that are not answered and the answers that are not handled. -/
def Exchanges (s s' : System ℓ) : Option Exchange → Prop
  | none => s'.calls.count (.subscribed k topic) = s.calls.count (.subscribed k topic) ∧
      s'.answers k topic = s.answers k topic
  | some (.asked _) =>
      s'.calls.count (.subscribed k topic) = s.calls.count (.subscribed k topic) + 1 ∧
      s'.answers k topic = s.answers k topic
  | some (.answered result) =>
      s.calls.count (.subscribed k topic) = s'.calls.count (.subscribed k topic) + 1 ∧
      s'.answers k topic = s.answers k topic ++ [result]
  | some (.handled result) =>
      s'.calls.count (.subscribed k topic) = s.calls.count (.subscribed k topic) ∧
      s.answers k topic = result :: s'.answers k topic

variable {k topic}

/-- Until a turn begins, only the answer to a subscribe brings one. -/
theorem answers_step (hc : s.Coherent past) (h : s.step m = some s') (hm : ∀ x, m ≠ .take x)
    (hr : ∀ result, m ≠ .answer (.subscribed k topic) result) :
    s'.answers k topic = s.answers k topic := by
  have hnone : (s.brought m ++ m.performed.flatMap Effect.posted).filterMap
      (Signal.answer? k topic) = [] := by
    refine List.filterMap_eq_nil_iff.mpr fun x hx => ?_
    have hcount := x.count_awaited k topic
    rw [List.count_eq_zero.mpr] at hcount
    · exact Option.eq_none_of_isNone (by simpa using hcount.symm)
    intro ha
    rcases List.mem_append.mp hx with hx | hx
    · obtain ⟨result, -, rfl⟩ := (of_mem_brought hx).2.2 _ ha
      exact hr result rfl
    · exact absurd (Signal.awaited_of_isOwn (hc.isOwn_of_performed h hx) _ ha) (by simp)
  rw [answers, waiting_step h hm, List.append_assoc, List.filterMap_append, hnone,
    List.append_nil, answers]

theorem exchanges_perform (hc : s.Coherent past) {e : Effect}
    (h : s.step (.perform e) = some s') :
    Exchanges k topic s s' (Move.exchange? k topic (.perform e : Move ℓ)) := by
  have hanswers : s'.answers k topic = s.answers k topic := answers_step hc h (by simp) (by simp)
  obtain ⟨rest, -, rfl⟩ := step_perform h
  have hcalls : (s.perform e rest).calls = s.calls ++ e.reply?.toList := rfl
  cases e with
  | request r =>
    cases r with
    | subscribe j params =>
      by_cases hj : j = k ∧ params.topic = topic
      · obtain ⟨rfl, rfl⟩ := hj
        simp only [Move.exchange?, and_self, if_true, Exchanges]
        exact ⟨by simp [hcalls, Effect.reply?, Request.reply?], hanswers⟩
      · simp only [Move.exchange?, hj, if_false, Exchanges]
        refine ⟨?_, hanswers⟩
        simp [hcalls, Effect.reply?, Request.reply?, hj]
    | _ => exact ⟨by simp [hcalls, Effect.reply?, Request.reply?], hanswers⟩
  | _ => exact ⟨by simp [hcalls, Effect.reply?], hanswers⟩

theorem exchanges_answer {r : Reply} (hr : r ∈ s.calls) (result : Outcome) :
    Exchanges k topic s { s.post (r.signal result) with calls := s.calls.erase r }
      (Move.exchange? k topic (.answer r result : Move ℓ)) := by
  have hanswers := answers_post k topic s (r.signal result)
  have hother (hr : r ≠ .subscribed k topic) :
      (s.calls.erase r).count (.subscribed k topic) = s.calls.count (.subscribed k topic) :=
    List.count_erase_of_ne hr.symm
  cases r with
  | subscribed j t =>
    by_cases hj : j = k ∧ t = topic
    · obtain ⟨rfl, rfl⟩ := hj
      simp only [Move.exchange?, and_self, if_true, Exchanges]
      refine ⟨?_, hanswers.trans (by simp [Reply.signal, Signal.answer?])⟩
      have hpos : 0 < s.calls.count (.subscribed j t) := List.count_pos_iff.mpr hr
      simp only [List.count_erase_self]
      omega
    · simp only [Move.exchange?, hj, if_false, Exchanges]
      refine ⟨hother ?_, hanswers.trans (by simp [Reply.signal, Signal.answer?, hj])⟩
      rintro ⟨⟩
      exact hj ⟨rfl, rfl⟩
  | _ =>
    exact ⟨hother (by simp), hanswers.trans (by simp [Reply.signal, Signal.answer?])⟩

theorem exchanges_step (hc : s.Coherent past) (h : s.step m = some s') :
    Exchanges k topic s s' (m.exchange? k topic) := by
  cases step_eq_some.mp h with
  | @take x rest ha hw =>
    have hanswers : s.answers k topic =
        (x.answer? k topic).toList ++ (s.begin x ⟨rest, true⟩).answers k topic := by
      rw [answers, hw]
      cases hx : x.answer? k topic <;> simp [hx, answers, begin]
    cases x with
    | subscribed j t result =>
      by_cases hj : j = k ∧ t = topic
      · simp only [Move.exchange?, hj, and_self, if_true, Exchanges]
        exact ⟨rfl, by simpa [Signal.answer?, hj] using hanswers⟩
      · simp only [Move.exchange?, hj, if_false, Exchanges]
        exact ⟨rfl, by simpa [Signal.answer?, hj] using hanswers.symm⟩
    | _ => exact ⟨rfl, by simpa [Signal.answer?] using hanswers.symm⟩
  | perform => exact exchanges_perform hc h
  | answer hr => exact exchanges_answer hr _
  | _ => exact ⟨rfl, answers_step hc h (by simp) (by simp)⟩

/-- The subscribes to a topic on a connection go in rounds. In the last one the answer may still be
to come, or it may still be to handle. -/
inductive InRounds (k : ConnectionId) (topic : Topic) (past : List (Move ℓ)) (s : System ℓ) : Prop
  | finished (rs : List (SubscribeParams × Outcome))
    (exchanges : exchanges k topic past = Exchange.rounds rs)
    (calls : s.calls.count (.subscribed k topic) = 0) (answers : s.answers k topic = [])
  | asked (rs : List (SubscribeParams × Outcome)) (params : SubscribeParams)
    (exchanges : exchanges k topic past = Exchange.rounds rs ++ [.asked params])
    (calls : s.calls.count (.subscribed k topic) = 1) (answers : s.answers k topic = [])
  | answered (rs : List (SubscribeParams × Outcome)) (params : SubscribeParams) (result : Outcome)
    (exchanges : exchanges k topic past =
      Exchange.rounds rs ++ [.asked params, .answered result])
    (calls : s.calls.count (.subscribed k topic) = 0) (answers : s.answers k topic = [result])

namespace InRounds

theorem new (id : String) (threshold : Nat) :
    InRounds k topic [] (System.new id threshold : System ℓ) :=
  .finished [] rfl rfl rfl

theorem step (hc : s.Coherent past) (hone : s.due (.reply (.subscribed k topic)) ≤ 1)
    (h : s.InRounds k topic past) (hs : s.step m = some s') :
    s'.InRounds k topic (past ++ [m]) := by
  have hexchanges : Exchanges k topic s s' (m.exchange? k topic) := exchanges_step hc hs
  have happend := exchanges_append k topic past m
  have hunder := calls_answers_le k topic s
  cases hm : m.exchange? k topic with
  | none =>
    rw [hm] at hexchanges happend
    obtain ⟨hcalls, hanswers⟩ := hexchanges
    rw [Option.toList_none, List.append_nil] at happend
    cases h with
    | finished rs he hk ha =>
      exact .finished rs (happend.trans he) (hcalls.trans hk) (hanswers.trans ha)
    | asked rs params he hk ha =>
      exact .asked rs params (happend.trans he) (hcalls.trans hk) (hanswers.trans ha)
    | answered rs params result he hk ha =>
      exact .answered rs params result (happend.trans he) (hcalls.trans hk) (hanswers.trans ha)
  | some exchange =>
    rw [hm] at hexchanges happend
    rw [Option.toList_some] at happend
    cases exchange with
    | asked params =>
      obtain ⟨hcalls, hanswers⟩ := hexchanges
      -- The call that is made is under way, so no other one is.
      have hpos : 0 < (s.agenda.flatMap Effect.awaited).count (.reply (.subscribed k topic)) := by
        obtain ⟨rfl, rfl⟩ := Move.eq_perform_of_asked hm
        obtain ⟨rest, ha, -⟩ := step_perform hs
        simp [ha, Effect.awaited, Request.reply?]
      cases h with
      | finished rs he hk ha =>
        exact .asked rs params (by rw [happend, he]) (by omega) (hanswers.trans ha)
      | asked rs params' he hk ha => omega
      | answered rs params' result he hk ha =>
        rw [ha, List.length_singleton] at hunder
        omega
    | answered result =>
      obtain ⟨hcalls, hanswers⟩ := hexchanges
      cases h with
      | finished rs he hk ha => omega
      | asked rs params he hk ha =>
        exact .answered rs params result (by rw [happend, he]; simp) (by omega)
          (by rw [hanswers, ha]; rfl)
      | answered rs params result' he hk ha => omega
    | handled result =>
      obtain ⟨hcalls, hanswers⟩ := hexchanges
      cases h with
      | finished rs he hk ha =>
        rw [ha] at hanswers
        cases hanswers
      | asked rs params he hk ha =>
        rw [ha] at hanswers
        cases hanswers
      | answered rs params result' he hk ha =>
        rw [ha] at hanswers
        obtain ⟨rfl, hnone⟩ := List.cons.inj hanswers
        refine .finished (rs ++ [(params, result')]) ?_ (hcalls.trans hk) hnone.symm
        rw [happend, he]
        simp [Exchange.rounds, Exchange.round]

end InRounds

end System

end Moves

namespace Reached

variable {ℓ : Type} {s : System ℓ} {past : List (Move ℓ)} {k : ConnectionId}

/-- The subscribes on the current connection go in rounds. -/
theorem inRounds (h : Reached past s) (hk : s.client.core.connection = some k) (topic : Topic) :
    s.InRounds k topic past := by
  -- The connections that are still to come are included, because one of them may be the next.
  refine h.induction (P := fun past s => ∀ k : ConnectionId,
    s.client.core.connection = some k ∨ s.client.core.connections < k.number →
      s.InRounds k topic past) (fun id threshold k _ => .new id threshold) ?_ k (.inl hk)
  intro past s m s' hr ih hs k hk
  have hold : s.client.core.connection = some k ∨ s.client.core.connections < k.number := by
    cases m with
    | take x =>
      have hh := hr.handles hs
      have hle := hr.connections_le hs
      rw [System.core_take hs] at hk
      rcases hk with hk | hk
      · rcases hh.connect_of_new hk with hk | ⟨e, he⟩
        · exact .inl hk
        · obtain ⟨-, -, rfl, -⟩ := hh.connect he
          exact .inr (Nat.lt_succ_self _)
      · exact .inr (hle.trans_lt hk)
    | _ => rwa [System.core_step hs (by simp)] at hk
  have htracking := hr.coherent.sound.tracking
  refine (ih k hold).step hr.coherent ?_ hs
  rcases hold with hold | hold
  · exact (htracking.linked rfl k hold topic).subscribes.trans (by split <;> simp)
  · exact (htracking.newest _ hold topic).1.trans_le (Nat.zero_le 1)

end Reached

end PubSub
