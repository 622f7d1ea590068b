import PubSub.Proofs.Growth

/-! # Delays stay in range

A schedule is asked for waits and is reset, in any order. With options that are
accepted every wait is found, lies within the longest one that is set, and after
a reset the first wait and the number of waits are those of a new schedule.
-/

namespace PubSub

namespace Backoff

inductive Use where
  | next
  | reset
  deriving DecidableEq, Repr

/-- How many waits have been asked for since the schedule was new or reset. -/
def rounds (uses : List Use) : Nat :=
  uses.foldl (fun n u => if u = .next then n + 1 else 0) 0

theorem rounds_le_count (uses : List Use) : rounds uses ≤ uses.count .next := by
  induction uses using List.reverseRecOn with
  | nil => exact le_rfl
  | append_singleton uses u ih =>
    rw [rounds, List.foldl_append, ← rounds, List.count_append]
    cases u with
    | next => simpa using ih
    | reset => simp

variable {b : Backoff} {o : RetryOptions}

theorem Steady.reset (h : b.Steady) : b.reset.Steady := by
  refine ⟨?_, h.limit, h.multiplier⟩
  rw [Backoff.reset, Duration.min_nanos]
  exact Nat.min_le_right ..

/-- The schedule is that of the options after so many rounds. -/
structure Follows (o : RetryOptions) (n : Nat) (b : Backoff) : Prop where
  steady : b.Steady
  initial : b.initial = .ofMillis o.initialDelayMs
  limit : b.limit = .ofMillis o.maxDelayMs
  maxAttempts : b.maxAttempts = o.maxAttempts
  attempt : b.attempt.val = n
  /-- Before the first round the wait is the initial one. -/
  fresh : n = 0 → b.current = b.initial.min b.limit

theorem current_advance_of_exhausted {k : Nat} (h : b.advance.1 = .exhausted k) :
    b.advance.2.current = b.current := by
  unfold advance at h ⊢
  split
  · rfl
  · split <;> simp_all

theorem Follows.new (hm : o.multiplierInRange) (hmax : o.maxDelayMs < 2 ^ 64) :
    Follows o 0 (ofOptions o) :=
  ⟨steady_ofOptions hm hmax, rfl, rfl, rfl, rfl, fun _ => rfl⟩

theorem Follows.reset {n : Nat} (h : Follows o n b) : Follows o 0 b.reset :=
  ⟨h.steady.reset, h.initial, h.limit, h.maxAttempts, rfl, fun _ => rfl⟩

section Uses

variable [OverflowChecks]

def use (b : Backoff) : Use → Backoff
  | .next => b.next.2
  | .reset => b.reset

def used (b : Backoff) (uses : List Use) : Backoff := uses.foldl use b

theorem eq_current_of_wait {delay : Duration} (h : b.next.1 = .wait delay) : delay = b.current := by
  unfold Backoff.next at h
  split at h
  · cases h
  · unfold advance at h
    split at h
    · cases h
    · split at h
      · cases h
      · exact (Answer.wait.inj h).symm

theorem current_next_of_exhausted {k : Nat} (h : b.next.1 = .exhausted k) :
    b.next.2.current = b.current := by
  unfold Backoff.next at h ⊢
  split
  · rfl
  · next attempt hc =>
    simp only [hc] at h
    exact current_advance_of_exhausted h

namespace Follows

variable {n : Nat}

theorem next (h : Follows o n b) (hn : n + 1 < UInt32.size) : Follows o (n + 1) b.next.2 := by
  have hs := h.steady.next
  have ha := attempt_next b (h.attempt.symm ▸ hn)
  obtain ⟨attempt, current, hb⟩ := b.next_eq
  rw [hb] at hs ha ⊢
  exact ⟨hs, h.initial, h.limit, h.maxAttempts, ha.trans (congrArg (· + 1) h.attempt), nofun⟩

/-- Where a schedule stands depends on the uses since its last reset. -/
theorem used (h : Follows o 0 b) {uses : List Use} (hcount : uses.count .next < UInt32.size) :
    Follows o (rounds uses) (b.used uses) := by
  induction uses using List.reverseRecOn with
  | nil => exact h
  | append_singleton uses u ih =>
    rw [List.count_append] at hcount
    have hf := ih ((Nat.le_add_right ..).trans_lt hcount)
    rw [rounds, Backoff.used, List.foldl_append, List.foldl_append, ← rounds, ← Backoff.used]
    cases u with
    | next => exact hf.next ((Nat.succ_le_succ (rounds_le_count uses)).trans_lt hcount)
    | reset => exact hf.reset

theorem next_eq_wait (h : Follows o n b) (hcount : n + 1 < UInt32.size)
    (hn : ∀ k ∈ o.maxAttempts, n < k) : b.next.1 = .wait b.current := by
  apply h.steady.next_eq_wait
  · rwa [h.attempt]
  · rw [h.attempt, h.maxAttempts]
    exact hn

theorem next_eq_exhausted (h : Follows o n b) (hcount : n + 1 < UInt32.size) {k : Nat}
    (hk : o.maxAttempts = some k) (hn : k ≤ n) : b.next.1 = .exhausted k := by
  rw [next_eq_exhausted_iff b (h.attempt.symm ▸ hcount), h.attempt, h.maxAttempts]
  exact ⟨hk, hn⟩

end Follows

/-- What a schedule for the given options keeps to when it is asked for a wait after any uses. -/
structure KeepsInRange (o : RetryOptions) (past : List Use) : Prop where
  /-- The grown wait is a duration before it is limited. -/
  grows : ∃ d, ((ofOptions o).used past).grown? = some d
  answered : ((ofOptions o).used past).next.1 ≠ .overflow
  /-- The count does not overflow. -/
  counted : ((ofOptions o).used past).next.2.attempt.val = rounds past + 1
  le_limit : ∀ delay, ((ofOptions o).used past).next.1 = .wait delay →
    delay.nanos ≤ (Duration.ofMillis o.maxDelayMs).nanos
  first : rounds past = 0 → ∀ delay, ((ofOptions o).used past).next.1 = .wait delay →
    delay = .ofMillis o.initialDelayMs
  /-- So many waits are given, and every later one is refused. -/
  limited : ∀ k, o.maxAttempts = some k →
    if rounds past < k then ∃ delay, ((ofOptions o).used past).next.1 = .wait delay
    else ((ofOptions o).used past).next.1 = .exhausted k ∧
      ((ofOptions o).used past).next.2.current = ((ofOptions o).used past).current
  unlimited : o.maxAttempts = none → ∃ delay, ((ofOptions o).used past).next.1 = .wait delay

theorem keeps_in_range (h : o.findings = []) (hmax : o.maxDelayMs < 2 ^ 64) {past : List Use}
    (hpast : past.count .next + 1 < 2 ^ 32) : KeepsInRange o past := by
  obtain ⟨-, hle, hm⟩ := RetryOptions.findings_eq_nil_iff.mp h
  have hb : Follows o (rounds past) ((ofOptions o).used past) :=
    (Follows.new hm hmax).used (Nat.lt_of_succ_lt hpast)
  have hcount : rounds past + 1 < UInt32.size :=
    (Nat.succ_le_succ (rounds_le_count past)).trans_lt hpast
  constructor
  case grows => exact hb.steady.grown?
  case answered =>
    cases hk : o.maxAttempts with
    | none =>
      rw [hb.next_eq_wait hcount (by simp [hk])]
      exact nofun
    | some k =>
      rcases Nat.lt_or_ge (rounds past) k with hlt | hge
      · rw [hb.next_eq_wait hcount (by simpa [hk] using hlt)]
        exact nofun
      · rw [hb.next_eq_exhausted hcount hk hge]
        exact nofun
  case counted => exact (hb.next hcount).attempt
  case le_limit =>
    intro delay hd
    rw [eq_current_of_wait hd, ← hb.limit]
    exact hb.steady.current
  case first =>
    intro hfirst delay hd
    have hmin : ¬ o.maxDelayMs * 1000000 < o.initialDelayMs * 1000000 := by omega
    rw [eq_current_of_wait hd, hb.fresh hfirst, hb.initial, hb.limit, Duration.min, Duration.ofMillis,
      Duration.ofMillis, if_neg hmin]
  case limited =>
    intro k hk
    split
    · next hlt => exact ⟨_, hb.next_eq_wait hcount (by simpa [hk] using hlt)⟩
    · next hge =>
      have hex := hb.next_eq_exhausted hcount hk (Nat.le_of_not_lt hge)
      exact ⟨hex, current_next_of_exhausted hex⟩
  case unlimited =>
    intro hk
    exact ⟨_, hb.next_eq_wait hcount (by simp [hk])⟩

end Uses

/-- The longest wait that can be set, the greatest factor, and a limit. -/
def steepest : RetryOptions where
  initialDelayMs := 2 ^ 64 - 1
  maxDelayMs := 2 ^ 64 - 1
  multiplier := .ofNat 10
  maxAttempts := some 1

theorem keeps_in_range_steepest : steepest.findings = [] ∧ steepest.maxDelayMs < 2 ^ 64 ∧
    KeepsInRange steepest [.next, .next, .reset, .next] := by
  have hf : steepest.findings = [] := by decide +kernel
  exact ⟨hf, by decide, keeps_in_range hf (by decide) (by decide)⟩

end Backoff

end PubSub
