import Mathlib.Logic.Function.Iterate
import PubSub.Rotation

/-! # The waits of a schedule

A schedule is asked for one wait after the other. Its limit counts the rounds
since the schedule was new or reset: so many waits are given, and every later
one is refused.
-/

namespace PubSub

namespace Backoff

variable (b : Backoff)

theorem advance_eq : ∃ current, b.advance.2 = { b with current := current } := by
  unfold advance
  split
  · exact ⟨_, rfl⟩
  · split <;> exact ⟨_, rfl⟩

theorem advance_eq_exhausted_iff {k : Nat} :
    b.advance.1 = .exhausted k ↔ b.maxAttempts = some k ∧ k < b.attempt.val := by
  unfold advance isExhausted
  cases hm : b.maxAttempts with
  | none => cases b.grown? <;> simp
  | some n =>
    by_cases hn : n < b.attempt.val
    · simp only [hn, decide_true, if_true, Option.getD_some, Answer.exhausted.injEq,
        Option.some.injEq]
      constructor
      · rintro rfl
        exact ⟨rfl, hn⟩
      · rintro ⟨rfl, -⟩
        rfl
    · have hk : ¬ (n = k ∧ k < b.attempt.val) := by
        rintro ⟨rfl, hk⟩
        exact hn hk
      cases b.grown? <;> simp [hn, hk]

variable [OverflowChecks]

/-- The schedule after it was asked for a number of waits. -/
def after (b : Backoff) (count : Nat) : Backoff := (fun b => b.next.2)^[count] b

def answers (b : Backoff) (count : Nat) : List Answer :=
  (List.range count).map fun i => (b.after i).next.1

theorem after_succ (n : Nat) : b.after (n + 1) = (b.after n).next.2 :=
  Function.iterate_succ_apply' ..

theorem answers_succ (n : Nat) : b.answers (n + 1) = b.answers n ++ [(b.after n).next.1] := by
  simp [answers, List.range_succ]

theorem answers_cons (n : Nat) : b.answers (n + 1) = b.next.1 :: b.next.2.answers n := by
  simp only [answers, List.range_succ_eq_map, List.map_cons, List.map_map]
  rfl

theorem next_of_lt (h : b.attempt.val + 1 < UInt32.size) :
    b.next = { b with attempt := ⟨b.attempt.val + 1, h⟩ }.advance := by
  have hc : b.counted? = some ⟨b.attempt.val + 1, h⟩ := by
    rw [counted?, if_neg fun hfull => Nat.ne_of_lt h hfull.2]
    exact congrArg some (Fin.ext (Nat.mod_eq_of_lt h))
  rw [next, hc]

theorem next_eq : ∃ attempt current,
    b.next.2 = { b with attempt := attempt, current := current } := by
  unfold next
  split
  · exact ⟨b.attempt, b.current, rfl⟩
  · next attempt _ =>
    obtain ⟨current, h⟩ := advance_eq { b with attempt := attempt }
    exact ⟨attempt, current, h⟩

theorem attempt_next (h : b.attempt.val + 1 < UInt32.size) :
    b.next.2.attempt.val = b.attempt.val + 1 := by
  rw [next_of_lt b h]
  obtain ⟨current, h⟩ := advance_eq { b with attempt := ⟨b.attempt.val + 1, h⟩ }
  rw [h]

theorem after_eq (n : Nat) : ∃ attempt current,
    b.after n = { b with attempt := attempt, current := current } := by
  induction n with
  | zero => exact ⟨b.attempt, b.current, rfl⟩
  | succ n ih =>
    obtain ⟨_, _, ih⟩ := ih
    obtain ⟨attempt, current, h⟩ := (b.after n).next_eq
    refine ⟨attempt, current, ?_⟩
    rw [after_succ, h, ih]

theorem attempt_after {n : Nat} (h : b.attempt.val + n < UInt32.size) :
    (b.after n).attempt.val = b.attempt.val + n := by
  induction n with
  | zero => rfl
  | succ n ih =>
    have hn := ih (Nat.lt_of_succ_lt h)
    rw [after_succ, attempt_next, hn, Nat.add_assoc]
    rwa [hn]

theorem attempt_after_of_new (h : b.attempt = 0) {n : Nat} (hn : n < UInt32.size) :
    (b.after n).attempt.val = n := by
  have hz : b.attempt.val = 0 := congrArg Fin.val h
  rw [attempt_after b (by rwa [hz, Nat.zero_add]), hz, Nat.zero_add]

@[simp]
theorem maxAttempts_after (n : Nat) : (b.after n).maxAttempts = b.maxAttempts := by
  obtain ⟨_, _, h⟩ := b.after_eq n
  rw [h]

@[simp]
theorem reset_after (n : Nat) : (b.after n).reset = b.reset := by
  obtain ⟨_, _, h⟩ := b.after_eq n
  rw [h]
  rfl

@[simp]
theorem reset_next : b.next.2.reset = b.reset := b.reset_after 1

/-- As long as the count fits, the limit alone decides whether a wait is refused. -/
theorem next_eq_exhausted_iff (h : b.attempt.val + 1 < UInt32.size) {k : Nat} :
    b.next.1 = .exhausted k ↔ b.maxAttempts = some k ∧ k ≤ b.attempt.val := by
  rw [next_of_lt b h, advance_eq_exhausted_iff]
  exact and_congr_right fun _ => Nat.lt_succ_iff

/-- A new schedule refuses exactly the waits beyond its limit, as long as its count fits. -/
theorem answer_eq_exhausted_iff (h : b.attempt = 0) {i k : Nat} (hi : i + 1 < UInt32.size) :
    (b.after i).next.1 = .exhausted k ↔ b.maxAttempts = some k ∧ k ≤ i := by
  have ha := attempt_after_of_new b h (Nat.lt_of_succ_lt hi)
  rw [next_eq_exhausted_iff _ (ha.symm ▸ hi), ha, maxAttempts_after]

section Unchecked

variable (hc : ¬ OverflowChecks.enabled)
include hc

end Unchecked

end Backoff

end PubSub
