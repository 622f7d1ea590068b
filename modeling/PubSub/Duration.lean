import PubSub.Number.Double

/-! # Durations

A duration is a whole number of nanoseconds. It is read as a double count of
seconds, and a double count of seconds is read back to the nearest nanosecond.
-/

namespace PubSub

structure Duration where
  nanos : Nat
  deriving DecidableEq, Repr, Inhabited

namespace Duration

def nanosPerSecond : Nat := 1000000000

def zero : Duration := ⟨0⟩

def ofMillis (n : Nat) : Duration := ⟨n * 1000000⟩

def ofSeconds (seconds nanos : Nat) : Duration := ⟨seconds * nanosPerSecond + nanos⟩

def seconds (d : Duration) : Nat := d.nanos / nanosPerSecond

def subsecond (d : Duration) : Nat := d.nanos % nanosPerSecond

def millis (d : Duration) : Nat := d.nanos / 1000000

/-- One past the longest duration: seconds are counted in 64 bits. -/
def bound : Nat := Nat.pow 2 64 * nanosPerSecond

def min (d e : Duration) : Duration := if e.nanos < d.nanos then e else d

/-- Whole seconds and the fraction are read as doubles, and then added. -/
def toDouble (d : Duration) : Double :=
  (Double.ofNat d.seconds).add (Double.ofRatio false d.subsecond nanosPerSecond)

/-- The exact value in nanoseconds, rounded to the nearest; none if negative or out of range. -/
def ofDouble? : Double → Option Duration
  | .nan => none
  | .infinite _ => none
  | .finite negative significand exponent =>
    if negative && significand != 0 then none
    else
      let nanos := roundHalfEven (significand * nanosPerSecond * Nat.pow 2 exponent.toNat)
        (Nat.pow 2 (-exponent).toNat)
      if nanos < bound then some ⟨nanos⟩ else none

/-- A number with zeros in front up to the given width. -/
def padded (width n : Nat) : String :=
  let digits := toString n
  String.ofList (List.replicate (width - digits.length) '0') ++ digits

/-- Seconds, a point, and nine digits of nanoseconds. -/
def text (d : Duration) : String := s!"{d.seconds}.{padded 9 d.subsecond}"

/-- Digits after the point, without the zeros that end them. -/
def fraction (width n : Nat) : String :=
  let digits := ((padded width n).toList.reverse.dropWhile (· == '0')).reverse
  if digits.isEmpty then "" else "." ++ String.ofList digits

/-- The largest unit that gives a whole part, with as many decimals as needed. -/
def unitText (d : Duration) : String :=
  if d.seconds ≠ 0 then s!"{d.seconds}{fraction 9 d.subsecond}s"
  else if 1000000 ≤ d.nanos then s!"{d.nanos / 1000000}{fraction 6 (d.nanos % 1000000)}ms"
  else if 1000 ≤ d.nanos then s!"{d.nanos / 1000}{fraction 3 (d.nanos % 1000)}µs"
  else s!"{d.nanos}ns"

/-- Whole seconds to the nearest of the milliseconds, halves up, in 64 bits. -/
def roundedSeconds (d : Duration) : Nat :=
  Nat.min ((d.millis + 500) / 1000) (Nat.pow 2 64 - 1)

@[simp]
theorem nanos_zero : zero.nanos = 0 := rfl

theorem min_nanos (d e : Duration) : (d.min e).nanos = Nat.min d.nanos e.nanos := by
  unfold min
  split
  · exact (Nat.min_eq_right (by omega)).symm
  · exact (Nat.min_eq_left (by omega)).symm

end Duration

end PubSub
