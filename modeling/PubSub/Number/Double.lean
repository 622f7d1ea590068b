import PubSub.Number.Rounding

/-! # Double precision numbers

A double is a signed significand of at most 53 bits times a power of two, an
infinity, or not a number. Every operation computes its exact rational result
and rounds it once, to the nearest double, ties to the even significand.
-/

namespace PubSub

inductive Double where
  | nan
  | infinite (negative : Bool)
  | finite (negative : Bool) (significand : Nat) (exponent : Int)
  deriving DecidableEq, Repr, Inhabited

namespace Double

/-- The exponent of the smallest positive double. -/
def leastExponent : Int := -1074

/-- The exponent of the largest doubles. -/
def greatestExponent : Int := 971

def zero (negative : Bool) : Double := .finite negative 0 leastExponent

/-- The integer part of the binary logarithm of `num / den`. -/
def floorLog2 (num den : Nat) : Int :=
  let guess : Int := (num.log2 : Int) - den.log2
  if num * Nat.pow 2 (-guess).toNat < den * Nat.pow 2 guess.toNat then guess - 1 else guess

/-- The double nearest to `± num / den`. -/
def ofRatio (negative : Bool) (num den : Nat) : Double :=
  if num = 0 then zero negative
  else
    let exponent := max (floorLog2 num den - 52) leastExponent
    let significand :=
      roundHalfEven (num * Nat.pow 2 (-exponent).toNat) (den * Nat.pow 2 exponent.toNat)
    let (significand, exponent) :=
      if significand = Nat.pow 2 53 then (Nat.pow 2 52, exponent + 1) else (significand, exponent)
    if greatestExponent < exponent then .infinite negative
    else .finite negative significand exponent

/-- The double nearest to `± significand * 2 ^ exponent`. -/
def ofScaled (negative : Bool) (significand : Nat) (exponent : Int) : Double :=
  ofRatio negative (significand * Nat.pow 2 exponent.toNat) (Nat.pow 2 (-exponent).toNat)

def ofNat (n : Nat) : Double := ofRatio false n 1

def ofInt (n : Int) : Double := ofRatio (n < 0) n.natAbs 1

/-- The double nearest to `± digits * 10 ^ exponent`. -/
def ofDecimal (negative : Bool) (digits : Nat) (exponent : Int) : Double :=
  if digits = 0 then zero negative
  else if 400 < exponent then .infinite negative
  else if exponent + (digits.log2 / 3 : Nat) < -400 then zero negative
  else ofRatio negative (digits * Nat.pow 10 exponent.toNat) (Nat.pow 10 (-exponent).toNat)

def isZero : Double → Bool
  | .finite _ significand _ => significand = 0
  | _ => false

def isNan : Double → Bool
  | .nan => true
  | _ => false

def withSign (negative : Bool) : Double → Double
  | .nan => .nan
  | .infinite _ => .infinite negative
  | .finite _ significand exponent => .finite negative significand exponent

/-- A finite double as an integer count of `2 ^ scale`, for a scale not above its exponent. -/
def scaledTo (negative : Bool) (significand : Nat) (exponent scale : Int) : Int :=
  let magnitude : Int := (significand * Nat.pow 2 (exponent - scale).toNat : Nat)
  if negative then -magnitude else magnitude

def mul : Double → Double → Double
  | .nan, _ => .nan
  | _, .nan => .nan
  | .infinite s, .infinite t => .infinite (s != t)
  | .infinite s, .finite t m _ => if m = 0 then .nan else .infinite (s != t)
  | .finite s m _, .infinite t => if m = 0 then .nan else .infinite (s != t)
  | .finite s m e, .finite t n f => ofScaled (s != t) (m * n) (e + f)

def div : Double → Double → Double
  | .nan, _ => .nan
  | _, .nan => .nan
  | .infinite _, .infinite _ => .nan
  | .infinite s, .finite t _ _ => .infinite (s != t)
  | .finite s _ _, .infinite t => zero (s != t)
  | .finite s m e, .finite t n f =>
    if n = 0 then if m = 0 then .nan else .infinite (s != t)
    else
      let scale := e - f
      ofRatio (s != t) (m * Nat.pow 2 scale.toNat) (n * Nat.pow 2 (-scale).toNat)

def add : Double → Double → Double
  | .nan, _ => .nan
  | _, .nan => .nan
  | .infinite s, .infinite t => if s = t then .infinite s else .nan
  | .infinite s, .finite .. => .infinite s
  | .finite .., .infinite t => .infinite t
  | .finite s m e, .finite t n f =>
    let scale := min e f
    let sum := scaledTo s m e scale + scaledTo t n f scale
    if sum = 0 then zero (s && t)
    else ofScaled (sum < 0) sum.natAbs scale

/-- The numeric order, in which the two zeros are equal and nothing compares with `nan`. -/
def lt : Double → Double → Bool
  | .nan, _ => false
  | _, .nan => false
  | .infinite s, .infinite t => s && !t
  | .infinite s, .finite .. => s
  | .finite .., .infinite t => !t
  | .finite s m e, .finite t n f =>
    let scale := min e f
    decide (scaledTo s m e scale < scaledTo t n f scale)

/-- The larger of two doubles, and the other one if one is not a number. -/
def maximum (x y : Double) : Double :=
  if x.isNan then y else if x.lt y then y else x

/-- The sixty-four bits of the interchange format: sign, biased exponent, fraction. -/
def bits : Double → Nat
  | .nan => 0x7ff8000000000000
  | .infinite negative => (if negative then Nat.pow 2 63 else 0) + 0x7ff0000000000000
  | .finite negative significand exponent =>
    (if negative then Nat.pow 2 63 else 0) +
      (if significand < Nat.pow 2 52 then significand
       else (exponent + 1075).toNat * Nat.pow 2 52 + (significand - Nat.pow 2 52))

end Double

end PubSub
