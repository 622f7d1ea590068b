import PubSub.Proofs.Timers

/-! # No client is stuck

Between two turns, whatever a client waits for in its phase is unanswered or
has its signal in the mailbox, and nothing of the kind is under way in the
phases that do not wait for it.
-/

namespace PubSub

namespace System

variable {ℓ : Type} {s : System ℓ} {past : List (Move ℓ)}

/-- How often something has been asked for without an answer yet. -/
def unanswered (s : System ℓ) (a : Awaited) : Nat :=
  (List.replicate s.lookups Awaited.lookup ++ s.calls.map Awaited.reply ++
    s.jobs.flatMap Job.awaited).count a

/-- How often a signal that ends something waits in the mailbox. -/
def queued (s : System ℓ) (a : Awaited) : Nat :=
  (s.client.mailbox.waiting.flatMap Signal.awaited).count a

theorem AtRest.due_eq (h : s.AtRest) (a : Awaited) : s.due a = s.unanswered a + s.queued a := by
  have ha : s.agenda = [] := h
  simp only [due, awaited, unanswered, queued, ha, List.flatMap_nil, List.append_nil,
    List.count_append]

/-- What the client posts to itself is nowhere but in its mailbox. -/
theorem AtRest.due_own (h : s.AtRest) {a : Awaited} (ha : a = .resume ∨ a = .remade) :
    s.due a = s.queued a := by
  have hn : s.agenda = [] := h
  rw [System.due_own s ha, queue, hn, List.flatMap_nil, List.append_nil, queued]

/-- Exactly one of what the client waits for is unanswered or has its signal in the mailbox. -/
def Pending (s : System ℓ) (a : Awaited) : Prop := s.unanswered a + s.queued a = 1

theorem AtRest.pending_iff (h : s.AtRest) {a : Awaited} : s.Pending a ↔ s.due a = 1 := by
  rw [Pending, h.due_eq]

/-- The client waits for nothing that will not come, and for what it waits it is in its phase. -/
structure NotStuck (past : List (Move ℓ)) (s : System ℓ) : Prop where
  lookup : s.client.core.phase.isLookup → s.Pending .lookup
  no_lookup : ¬ s.client.core.phase.isLookup → s.unanswered .lookup = 0 ∧ s.queued .lookup = 0
  opening : s.client.core.phase.isOpen →
    ∃ k, s.client.core.connection = some k ∧ s.Pending (.reply (.opened k))
  timer : s.client.core.timer.isSome ↔ s.client.core.phase.isTimed
  timing : ∀ n, s.client.core.timer = some n → s.Pending (.reply (.timerEnded n))
  renewals : s.client.core.phase = .remaking ∨ s.client.core.phase = .stoppingRemake →
    s.client.core.remakesOutstanding = s.client.core.subscriptions.countP (·.remaking)
  /-- A renewal without an answer may have been answered with the error of a lost connection. -/
  renewing : s.client.core.phase = .remaking ∨ s.client.core.phase = .stoppingRemake →
    s.client.core.remakesOutstanding = 0 ∧ s.queued .remade = 1 ∨
      0 < s.client.core.remakesOutstanding ∧ ∃ k, s.client.core.connection = some k ∧
        ∀ row ∈ s.client.core.subscriptions, row.remaking →
          s.Pending (.reply (.subscribed k row.topic)) ∨ Lost past k row.topic
  closing : s.client.core.phase = .stoppingClose →
    ∃ k, s.client.core.connection = some k ∧ s.Pending (.reply (.closed k))
  flushing : s.client.core.phase = .stoppingFlush → s.Pending .flush
  no_flushing : s.client.core.phase ≠ .stoppingFlush →
    s.unanswered .flush = 0 ∧ s.queued .flush = 0
  resuming : s.client.core.phase = .stopped → s.client.core.pendingStarts ≠ [] →
    s.queued .resume = 1

end System

variable {ℓ : Type} {s : System ℓ} {past : List (Move ℓ)}

theorem Reached.not_stuck (h : Reached past s) (hk : TimersKept past) (hr : s.AtRest) :
    s.NotStuck past := by
  obtain ⟨hc, ht⟩ := h.coherent.sound
  have htime : Timed _ _ _ _ := h.timely hk
  have hconn (hp : s.client.core.phase.isConnected) :
      s.client.core.connection = some ⟨s.client.core.connections⟩ :=
    hc.connection_of_connected (t := .begin s.client.core) hp
  have hnone {a : Awaited} (hd : s.due a = 0) : s.unanswered a = 0 ∧ s.queued a = 0 := by
    rw [hr.due_eq] at hd
    omega
  refine ⟨?_, ?_, ?_, ?_, ?_, ?_, ?_, ?_, ?_, ?_, ?_⟩
  · intro hp
    rw [hr.pending_iff, hc.lookup, Phase.marks, if_pos hp]
  · intro hp
    exact hnone (by rw [hc.lookup, Phase.marks, if_neg hp])
  · intro hp
    have hp' : s.client.core.phase.isConnected := by
      revert hp
      cases s.client.core.phase <;> decide
    refine ⟨_, hconn hp', hr.pending_iff.mpr ?_⟩
    exact (hc.opened hp').trans (if_pos hp)
  · have htimer : s.client.core.timer = _ := htime.timer
    rw [htimer]
    cases s.client.core.phase <;> simp [Phase.clock, Phase.isTimed]
  · intro n hn
    have htimer : s.client.core.timer = _ := htime.timer
    rw [hn] at htimer
    have hoff : s.client.core.phase.clock ≠ .off := by
      intro hoff
      simp [hoff] at htimer
    obtain rfl : n = s.client.core.course.timers := by simpa [hoff] using htimer
    exact hr.pending_iff.mpr (htime.ending hoff)
  · exact fun _ => ht.renewals
  · intro hp
    have hrem : s.due .remade = if s.client.core.remakesOutstanding = 0 then 1 else 0 := by
      have hrem := ht.remade
      rcases hp with hp | hp <;> rwa [hp] at hrem
    have hp' : s.client.core.phase.isConnected := by rcases hp with hp | hp <;> rw [hp] <;> rfl
    rcases Nat.eq_zero_or_pos s.client.core.remakesOutstanding with hz | hpos
    · rw [if_pos hz, hr.due_own (.inr rfl)] at hrem
      exact .inl ⟨hz, hrem⟩
    · refine .inr ⟨hpos, _, hconn hp', fun row hrow hm => ?_⟩
      rw [hr.pending_iff]
      exact (ht.linked rfl _ (hconn hp') row.topic).renewed row (ht.sorted.find?_of_mem hrow) hm
  · intro hp
    have hp' : s.client.core.phase.isConnected := by rw [hp]; rfl
    refine ⟨_, hconn hp', hr.pending_iff.mpr ?_⟩
    exact (hc.closed hp').trans (if_pos hp)
  · intro hp
    rw [hr.pending_iff, hc.flush, Phase.marks, if_pos hp]
  · intro hp
    exact hnone (by rw [hc.flush, Phase.marks, if_neg hp])
  · intro hp hs
    have hres : Posting.Holds _ _ _ := hc.resume
    rw [← hr.due_own (.inl rfl)]
    rw [hp] at hres
    exact hres.trans (if_pos hs)

/-- A run in which a client is stopped while it waits to try again, and its timer fails. -/
def stopWhileWaiting : List (Move Unit) :=
  [.call .stopped .start 0, .take (.start (some 0)), .perform (.publish .starting),
    .perform (.notify .starting), .perform (.request .lookup),
    .answerLookup (.ok (.retryAfter .zero)),
    .take (.endpointAnswered (.ok (.retryAfter .zero))), .perform (.publish .retrying),
    .perform (.notify (.retrying none)), .perform (.request (.schedule 1 .zero)),
    .call .retrying .stop 1, .take (.stop 1), .perform (.publish .stopping),
    .perform (.settle 0 (.error .clientStopped)), .perform (.request (.cancel 1)),
    .answer (.timerEnded 1) (.error .clientStopped)]

theorem Reached.not_stuck_stopWhileWaiting : ∃ s, Reached stopWhileWaiting s ∧
    TimersKept stopWhileWaiting ∧ s.AtRest ∧ s.client.core.phase = .stoppingTimer ∧
      s.NotStuck stopWhileWaiting := by
  have hr : ∃ s, (System.new "" 1).run stopWhileWaiting = some s ∧ s.AtRest ∧
      s.client.core.phase = .stoppingTimer := ⟨_, rfl, rfl, rfl⟩
  obtain ⟨s, hs, ha, hp⟩ := hr
  have hk : TimersKept stopWhileWaiting := by
    intro earlier n e he
    have hlast : stopWhileWaiting = stopWhileWaiting.dropLast ++
      [.answer (.timerEnded 1) (.error .clientStopped)] := rfl
    rw [hlast, List.prefix_concat_iff] at he
    rcases he with he | he
    · obtain ⟨rfl, he⟩ := List.append_inj' he rfl
      obtain ⟨rfl, -⟩ : n = 1 ∧ e = .clientStopped := by simpa using he
      simp [stopWhileWaiting]
    · -- No timer fails before.
      have hm := he.subset (List.mem_append_right _ (List.mem_singleton_self _))
      simp [stopWhileWaiting] at hm
  exact ⟨s, ⟨"", 1, hs⟩, hk, ha, hp, Reached.not_stuck ⟨"", 1, hs⟩ hk ha⟩

end PubSub
