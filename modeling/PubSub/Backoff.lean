import PubSub.Duration

/-! # Exponential backoff

The wait between two rounds of connection attempts grows by a factor up to a
limit. A schedule may allow a limited number of rounds; success resets it. The
rounds are counted in 32 bits.
-/

namespace PubSub

/-- Whether the program is built to check its counts. Where it is, a count that does not fit is a
fault; where it is not, the count begins anew. -/
class OverflowChecks where
  enabled : Bool

instance : OverflowChecks := ⟨true⟩

structure Backoff where
  initial : Duration
  current : Duration
  limit : Duration
  multiplier : Double
  attempt : Fin UInt32.size
  maxAttempts : Option Nat
  deriving DecidableEq, Repr

namespace Backoff

/-- What asking for the next wait gives. -/
inductive Answer where
  | wait (delay : Duration)
  | exhausted (attempts : Nat)
  /-- The grown wait is no duration, though the round is counted, or the count does not fit. -/
  | overflow
  deriving DecidableEq, Repr

/-- A factor below one, and one that is no number, count as one. -/
def new (initial limit : Duration) (multiplier : Double) : Backoff where
  initial := initial
  current := initial.min limit
  limit := limit
  multiplier := multiplier.maximum (Double.ofNat 1)
  attempt := 0
  maxAttempts := none

def standard : Backoff :=
  new (Duration.ofSeconds 1 0) (Duration.ofSeconds 60 0) (Double.ofNat 2)

def withMaxAttempts (b : Backoff) (attempts : Nat) : Backoff :=
  { b with maxAttempts := some attempts }

def reset (b : Backoff) : Backoff :=
  { b with current := b.initial.min b.limit, attempt := 0 }

/-- The wait after the current one, before the limit is applied. -/
def grown? (b : Backoff) : Option Duration :=
  Duration.ofDouble? (b.current.toDouble.mul b.multiplier)

def isExhausted (b : Backoff) : Bool :=
  match b.maxAttempts with
  | none => false
  | some attempts => attempts < b.attempt

/-- The current wait, for a round that is counted; the schedule moves on to the next one. -/
def advance (b : Backoff) : Answer × Backoff :=
  if b.isExhausted then (.exhausted (b.maxAttempts.getD 0), b)
  else
    match b.grown? with
    | none => (.overflow, b)
    | some delay => (.wait b.current, { b with current := delay.min b.limit })

/-- The count with one more round. -/
def counted? [OverflowChecks] (b : Backoff) : Option (Fin UInt32.size) :=
  if OverflowChecks.enabled ∧ b.attempt.val + 1 = UInt32.size then none else some (b.attempt + 1)

/-- Counts a round and gives its wait. -/
def next [OverflowChecks] (b : Backoff) : Answer × Backoff :=
  match b.counted? with
  | none => (.overflow, b)
  | some attempt => { b with attempt := attempt }.advance

end Backoff

end PubSub
