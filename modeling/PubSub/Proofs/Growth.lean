import Mathlib.Algebra.Order.Field.Power
import Mathlib.Tactic.Linarith
import Mathlib.Tactic.Positivity
import Mathlib.Tactic.Ring
import PubSub.Proofs.Validated
import PubSub.Proofs.Waits

/-! # Growing waits stay durations

The wait of a schedule grows by a product of doubles, which is read back as a
duration before it is limited. Rounding does not lead over a power of two, so
with options that are accepted the product stays far below the longest duration.
-/

namespace PubSub

theorem roundHalfEven_le_of_le {num den n : Nat} (h : num ≤ n * den) :
    roundHalfEven num den ≤ n := by
  rcases Nat.lt_or_ge (num / den) n with hlt | hge
  · exact (roundHalfEven_le num den).trans hlt
  · have hr : num = n * den := by
      apply Nat.le_antisymm h
      calc n * den ≤ num / den * den := Nat.mul_le_mul_right den hge
        _ ≤ num := Nat.div_mul_le_self num den
    rcases Nat.eq_zero_or_pos den with rfl | hd
    · simp [hr, roundHalfEven]
    · rw [hr, roundHalfEven_mul n hd]

namespace Double

/-- The double is a number from zero to a power of two. -/
def UpTo (p : Nat) : Double → Prop
  | .finite false significand exponent => (significand : ℚ) * 2 ^ exponent ≤ 2 ^ p
  | _ => False

variable {p q : Nat}

theorem two_zpow_mul (e : Int) : (2 : ℚ) ^ e * 2 ^ (-e).toNat = 2 ^ e.toNat := by
  rw [← zpow_natCast (2 : ℚ) (-e).toNat, ← zpow_natCast (2 : ℚ) e.toNat, ← zpow_add₀ two_ne_zero]
  congr 1
  omega

theorem mul_two_pow_le {m : Nat} {e : Int} (h : (m : ℚ) * 2 ^ e ≤ 2 ^ p) :
    m * 2 ^ e.toNat ≤ 2 ^ p * 2 ^ (-e).toNat := by
  have hq : ((m * 2 ^ e.toNat : ℕ) : ℚ) ≤ (2 ^ p * 2 ^ (-e).toNat : ℕ) := by
    push_cast
    rw [← two_zpow_mul, ← mul_assoc]
    gcongr
  exact_mod_cast hq

theorem floorLog2_le {num den : Nat} (h : num ≤ 2 ^ p * den) (hn : num ≠ 0) :
    floorLog2 num den ≤ p := by
  have hlog : num.log2 < p + (den.log2 + 1) := by
    rw [Nat.log2_lt hn]
    calc num ≤ 2 ^ p * den := h
      _ < 2 ^ p * 2 ^ (den.log2 + 1) := Nat.mul_lt_mul_of_pos_left Nat.lt_log2_self (by positivity)
      _ = 2 ^ (p + (den.log2 + 1)) := (Nat.pow_add ..).symm
  unfold floorLog2
  dsimp only
  split <;> omega

/-- Rounding does not lead over a power of two. -/
theorem upTo_ofRatio {num den : Nat} (h : num ≤ 2 ^ p * den) (hp : p ≤ 900) :
    UpTo p (ofRatio false num den) := by
  unfold ofRatio
  split
  · simp [zero, UpTo]
  · next hn =>
    have hlog := floorLog2_le h hn
    generalize he : max (floorLog2 num den - 52) leastExponent = e
    have hep : e ≤ p := by
      rw [← he]
      exact max_le (by omega) ((by decide : leastExponent ≤ 0).trans (by omega))
    have hsig : roundHalfEven (num * Nat.pow 2 (-e).toNat) (den * Nat.pow 2 e.toNat) ≤
        2 ^ (p - e).toNat := by
      apply roundHalfEven_le_of_le
      have hpow : 2 ^ p * 2 ^ (-e).toNat = 2 ^ (p - e).toNat * 2 ^ e.toNat := by
        rw [← Nat.pow_add, ← Nat.pow_add]
        congr 1
        omega
      calc num * 2 ^ (-e).toNat ≤ 2 ^ p * den * 2 ^ (-e).toNat := Nat.mul_le_mul_right _ h
        _ = den * (2 ^ p * 2 ^ (-e).toNat) := by rw [Nat.mul_comm (2 ^ p), Nat.mul_assoc]
        _ = 2 ^ (p - e).toNat * (den * 2 ^ e.toNat) := by rw [hpow, Nat.mul_left_comm]
    dsimp only
    generalize roundHalfEven _ _ = sig at hsig ⊢
    have hvalue : (sig : ℚ) * 2 ^ e ≤ 2 ^ p := by
      calc (sig : ℚ) * 2 ^ e ≤ (2 ^ (p - e).toNat : ℕ) * 2 ^ e := by gcongr
        _ = 2 ^ p := by
          rw [Nat.cast_pow, Nat.cast_two, ← zpow_natCast, ← zpow_natCast, ← zpow_add₀ two_ne_zero]
          congr 1
          omega
    split
    · next hs =>
      rw [if_neg (by simp only [greatestExponent]; omega)]
      refine le_trans (le_of_eq ?_) hvalue
      rw [hs, zpow_add_one₀ two_ne_zero]
      push_cast
      ring
    · rw [if_neg (by simp only [greatestExponent]; omega)]
      exact hvalue

theorem upTo_ofNat {n : Nat} (h : n ≤ 2 ^ p) (hp : p ≤ 900) : UpTo p (ofNat n) :=
  upTo_ofRatio (by omega) hp

theorem upTo_ofScaled {significand : Nat} {exponent : Int}
    (h : (significand : ℚ) * 2 ^ exponent ≤ 2 ^ p) (hp : p ≤ 900) :
    UpTo p (ofScaled false significand exponent) :=
  upTo_ofRatio (mul_two_pow_le h) hp

theorem UpTo.eq {x : Double} (h : UpTo p x) :
    ∃ (m : Nat) (e : Int), x = .finite false m e ∧ (m : ℚ) * 2 ^ e ≤ 2 ^ p := by
  unfold UpTo at h
  split at h
  · exact ⟨_, _, rfl, h⟩
  · exact h.elim

theorem UpTo.mul {x y : Double} (hx : UpTo p x) (hy : UpTo q y) (hp : p + q ≤ 900) :
    UpTo (p + q) (x.mul y) := by
  obtain ⟨m, e, rfl, hm⟩ := hx.eq
  obtain ⟨n, f, rfl, hn⟩ := hy.eq
  apply upTo_ofScaled ?_ hp
  calc ((m * n : ℕ) : ℚ) * 2 ^ (e + f) = (m * 2 ^ e) * (n * 2 ^ f) := by
        rw [zpow_add₀ two_ne_zero]
        push_cast
        ring
    _ ≤ 2 ^ p * 2 ^ q := mul_le_mul hm hn (by positivity) (by positivity)
    _ = 2 ^ (p + q) := (pow_add ..).symm

theorem scaledTo_mul {m : Nat} {e scale : Int} (h : scale ≤ e) :
    (scaledTo false m e scale : ℚ) * 2 ^ scale = m * 2 ^ e := by
  have hsum : ((e - scale).toNat : Int) + scale = e := by omega
  calc (scaledTo false m e scale : ℚ) * 2 ^ scale
      = m * (2 ^ ((e - scale).toNat : Int) * 2 ^ scale) := by
        rw [zpow_natCast, ← mul_assoc]
        simp [scaledTo]
    _ = m * 2 ^ e := by rw [← zpow_add₀ two_ne_zero, hsum]

theorem scaledTo_nonneg (m : Nat) (e scale : Int) : 0 ≤ scaledTo false m e scale := by
  simp [scaledTo]

theorem UpTo.add {r : Nat} {x y : Double} (hx : UpTo p x) (hy : UpTo q y)
    (hsum : 2 ^ p + 2 ^ q ≤ 2 ^ r) (hr : r ≤ 900) : UpTo r (x.add y) := by
  obtain ⟨m, e, rfl, hm⟩ := hx.eq
  obtain ⟨n, f, rfl, hn⟩ := hy.eq
  have hm' := scaledTo_nonneg m e (min e f)
  have hn' := scaledTo_nonneg n f (min e f)
  simp only [Double.add]
  split
  · simp [zero, UpTo]
  · rw [decide_eq_false (by omega)]
    apply upTo_ofScaled ?_ hr
    rw [← Int.cast_natCast, Int.natAbs_of_nonneg (by omega), Int.cast_add, add_mul,
      scaledTo_mul (min_le_left e f), scaledTo_mul (min_le_right e f)]
    calc (m : ℚ) * 2 ^ e + n * 2 ^ f ≤ 2 ^ p + 2 ^ q := add_le_add hm hn
      _ ≤ 2 ^ r := by exact_mod_cast hsum

theorem le_of_not_lt {m n : Nat} {e f : Int}
    (h : lt (.finite false m e) (.finite false n f) = false) : (n : ℚ) * 2 ^ f ≤ m * 2 ^ e := by
  simp only [lt, decide_eq_false_iff_not, not_lt] at h
  rw [← scaledTo_mul (min_le_left e f), ← scaledTo_mul (min_le_right e f)]
  gcongr

theorem ofNat_one : ofNat 1 = .finite false (2 ^ 52) (-52) := rfl

theorem ofNat_ten : ofNat 10 = .finite false (10 * 2 ^ 49) (-49) := rfl

end Double

namespace Duration

/-- The longest wait that options can set, in seconds, is below this power of two. -/
theorem upTo_toDouble {d : Duration} (h : d.seconds ≤ 2 ^ 55) : d.toDouble.UpTo 56 := by
  have hs : (Double.ofNat d.seconds).UpTo 55 := Double.upTo_ofNat h (by decide)
  have hf : (Double.ofRatio false d.subsecond nanosPerSecond).UpTo 0 := by
    apply Double.upTo_ofRatio ?_ (by decide)
    rw [pow_zero, one_mul]
    exact (Nat.mod_lt _ (by decide)).le
  exact hs.add hf (by decide) (by decide)

theorem ofDouble?_of_upTo {x : Double} (h : x.UpTo 60) : ∃ d, ofDouble? x = some d := by
  obtain ⟨m, e, rfl, hm⟩ := h.eq
  have hn : roundHalfEven (m * nanosPerSecond * Nat.pow 2 e.toNat) (Nat.pow 2 (-e).toNat) ≤
      2 ^ 60 * nanosPerSecond := by
    apply roundHalfEven_le_of_le
    calc m * nanosPerSecond * 2 ^ e.toNat
        = m * 2 ^ e.toNat * nanosPerSecond := Nat.mul_right_comm ..
      _ ≤ 2 ^ 60 * 2 ^ (-e).toNat * nanosPerSecond :=
        Nat.mul_le_mul_right _ (Double.mul_two_pow_le hm)
      _ = 2 ^ 60 * nanosPerSecond * 2 ^ (-e).toNat := Nat.mul_right_comm ..
  have hb : 2 ^ 60 * nanosPerSecond < bound := by decide
  simp only [ofDouble?, Bool.false_and, Bool.false_eq_true, if_false]
  exact ⟨_, if_pos (hn.trans_lt hb)⟩

end Duration

namespace RetryOptions

variable {o : RetryOptions}

/-- A multiplier in range is at most ten, and sixteen is a power of two. -/
theorem upTo_multiplier (h : o.multiplierInRange) :
    (o.multiplier.maximum (.ofNat 1)).UpTo 4 := by
  rw [multiplierInRange, Bool.and_eq_true, Bool.not_eq_true', Bool.not_eq_true'] at h
  obtain ⟨hone, hten⟩ := h
  unfold Double.maximum
  split
  · exact Double.upTo_ofNat (by decide) (by decide)
  · next hnan =>
    rw [if_neg (by simp [hone])]
    cases hm : o.multiplier with
    | nan => exact absurd (hm ▸ rfl) hnan
    | infinite s =>
      rw [hm] at hone hten
      cases s with
      | false => exact absurd hten (by decide)
      | true => exact absurd hone (by decide)
    | finite s m e =>
      rw [hm] at hone hten
      cases s with
      | false =>
        rw [Double.ofNat_ten] at hten
        refine (Double.le_of_not_lt hten).trans ?_
        norm_num
      | true =>
        -- A number that is not above zero is below one.
        rw [Double.ofNat_one] at hone
        simp only [Double.lt, decide_eq_false_iff_not, not_lt] at hone
        have hneg : Double.scaledTo true m e (min e (-52)) ≤ 0 := by simp [Double.scaledTo]
        have hpos : 0 < Double.scaledTo false (2 ^ 52) (-52) (min e (-52)) := by
          simp [Double.scaledTo]
        omega

end RetryOptions

namespace Backoff

variable {b : Backoff}

/-- The schedule is one whose waits stay durations. -/
structure Steady (b : Backoff) : Prop where
  current : b.current.nanos ≤ b.limit.nanos
  limit : b.limit.seconds ≤ 2 ^ 55
  multiplier : b.multiplier.UpTo 4

theorem Steady.grown? (h : b.Steady) : ∃ d, b.grown? = some d := by
  have hc : b.current.seconds ≤ 2 ^ 55 := (Nat.div_le_div_right h.current).trans h.limit
  exact Duration.ofDouble?_of_upTo ((Duration.upTo_toDouble hc).mul h.multiplier (by decide))

theorem Steady.advance (h : b.Steady) : b.advance.2.Steady := by
  unfold Backoff.advance
  split
  · exact h
  · split
    · exact h
    · refine ⟨?_, h.limit, h.multiplier⟩
      rw [Duration.min_nanos]
      exact Nat.min_le_right ..

theorem Steady.advance_eq_wait (h : b.Steady)
    (hlimit : ∀ k, b.maxAttempts = some k → b.attempt.val ≤ k) :
    b.advance.1 = .wait b.current := by
  obtain ⟨d, hd⟩ := h.grown?
  have hexhausted : b.isExhausted = false := by
    unfold isExhausted
    split
    · rfl
    · next k hk => exact decide_eq_false (Nat.not_lt.mpr (hlimit k hk))
  rw [Backoff.advance, hexhausted, hd]
  rfl

/-- The schedule of options that are accepted is steady, if the longest wait is of 64 bits. -/
theorem steady_ofOptions {o : RetryOptions} (h : o.multiplierInRange)
    (hmax : o.maxDelayMs < 2 ^ 64) : (ofOptions o).Steady := by
  constructor
  case current =>
    rw [ofOptions, new, Duration.min_nanos]
    exact Nat.min_le_right ..
  case limit =>
    have hs : o.maxDelayMs * 1000000 / 1000000000 ≤ 2 ^ 55 := by omega
    exact hs
  case multiplier => exact RetryOptions.upTo_multiplier h

variable [OverflowChecks]

theorem Steady.next (h : b.Steady) : b.next.2.Steady := by
  unfold Backoff.next
  split
  · exact h
  · exact Steady.advance ⟨h.current, h.limit, h.multiplier⟩

theorem Steady.after (h : b.Steady) (count : Nat) : (b.after count).Steady := by
  induction count with
  | zero => exact h
  | succ count ih =>
    rw [after_succ]
    exact ih.next

theorem Steady.next_eq_wait (h : b.Steady) (hcount : b.attempt.val + 1 < UInt32.size)
    (hlimit : ∀ k, b.maxAttempts = some k → b.attempt.val < k) :
    b.next.1 = .wait b.current := by
  rw [next_of_lt b hcount]
  exact Steady.advance_eq_wait ⟨h.current, h.limit, h.multiplier⟩ hlimit

theorem Steady.answers_limited (h : b.Steady) {k : Nat} (hnew : b.attempt = 0)
    (hlimit : b.maxAttempts = some k) (hk : k + 1 < UInt32.size) :
    ∃ delays : List Duration, delays.length = k ∧ b.answers k = delays.map .wait ∧
      b.answers (k + 1) = delays.map .wait ++ [.exhausted k] := by
  have hwait : ∀ i < k, (b.after i).next.1 = .wait (b.after i).current := by
    intro i hi
    have ha : (b.after i).attempt.val = i :=
      attempt_after_of_new b hnew ((hi.trans k.lt_succ_self).trans hk)
    apply (h.after i).next_eq_wait
    · rw [ha]
      exact (Nat.succ_lt_succ hi).trans hk
    · intro k' hk'
      rw [maxAttempts_after, hlimit] at hk'
      obtain rfl := Option.some.inj hk'
      rwa [ha]
  have hanswers : b.answers k = ((List.range k).map fun i => (b.after i).current).map .wait := by
    rw [answers, List.map_map]
    exact List.map_congr_left fun i hi => hwait i (List.mem_range.mp hi)
  refine ⟨_, by simp, hanswers, ?_⟩
  rw [answers_succ, hanswers, (b.answer_eq_exhausted_iff hnew hk).mpr ⟨hlimit, le_rfl⟩]

end Backoff

end PubSub
