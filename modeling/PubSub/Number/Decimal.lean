import PubSub.Number.Double

/-! # Decimal text of doubles

The text of a double shows the fewest decimal digits that read back as that
double, and of those the digits nearest to its value. Three layouts of these
digits are in use: plain, scientific outside a middle range, and the layout of
JSON documents.
-/

namespace PubSub

namespace Double

/-- Decimal digits `d₁ d₂ …` that stand for `0.d₁d₂… * 10 ^ point`. -/
structure Digits where
  digits : List Char
  point : Int
  deriving DecidableEq, Repr

/-- The position of the decimal point of `num / den`: the least `k` with `num / den < 10 ^ k`. -/
def decimalPoint (num den : Nat) : Int :=
  let guess : Int := (num.log2 : Int) * 3 / 10 - (den.log2 : Int) * 3 / 10
  let below (k : Int) : Bool := num * Nat.pow 10 (-k).toNat < den * Nat.pow 10 k.toNat
  let rec down (fuel : Nat) (k : Int) : Int :=
    match fuel with
    | 0 => k
    | fuel + 1 => if below (k - 1) then down fuel (k - 1) else k
  let rec up (fuel : Nat) (k : Int) : Int :=
    match fuel with
    | 0 => k
    | fuel + 1 => if below k then k else up fuel (k + 1)
  down 400 (up 400 guess)

/-- Whether a rational number rounds to the double `significand * 2 ^ exponent`. -/
def roundsTo (num den : Nat) (significand : Nat) (exponent : Int) : Bool :=
  ofRatio false num den = .finite false significand exponent

/-- The digits of the shortest decimal that reads back as `significand * 2 ^ exponent`. -/
def shortest (significand : Nat) (exponent : Int) : Digits :=
  let num := significand * Nat.pow 2 exponent.toNat
  let den := Nat.pow 2 (-exponent).toNat
  let point := decimalPoint num den
  let rec search (fuel count : Nat) : Digits :=
    let grid : Int := point - count
    let below := num * Nat.pow 10 (-grid).toNat / (den * Nat.pow 10 grid.toNat)
    let value (n : Nat) : Nat × Nat := (n * Nat.pow 10 grid.toNat, Nat.pow 10 (-grid).toNat)
    let accepted (n : Nat) : Bool :=
      roundsTo (value n).1 (value n).2 significand exponent
    let nearest := roundHalfEven (num * Nat.pow 10 (-grid).toNat) (den * Nat.pow 10 grid.toNat)
    let written (n : Nat) : Digits :=
      let text := Nat.toDigits 10 n
      ⟨text, grid + text.length⟩
    match fuel with
    | 0 => written nearest
    | fuel + 1 =>
      if accepted nearest then written nearest
      else if accepted below then written below
      else if accepted (below + 1) then written (below + 1)
      else search fuel (count + 1)
  search 17 1

/-- Digits without the zeros at their end, which only mark the position of the point. -/
def Digits.trimmed (d : Digits) : Digits :=
  { d with digits := (d.digits.reverse.dropWhile (· == '0')).reverse }

def zeros (n : Int) : List Char := List.replicate n.toNat '0'

/-- Digits with the point at its place and no exponent. -/
def Digits.positional (d : Digits) (fraction : List Char) : List Char :=
  let count : Int := d.digits.length
  if d.point ≤ 0 then ['0', '.'] ++ zeros (-d.point) ++ d.digits
  else if count ≤ d.point then d.digits ++ zeros (d.point - count) ++ fraction
  else d.digits.take d.point.toNat ++ '.' :: d.digits.drop d.point.toNat

/-- One digit, the point, the others, and the exponent. -/
def Digits.scientific (d : Digits) (plus : String) : List Char :=
  let exponent := d.point - 1
  let mantissa := match d.digits with
    | [] => ['0']
    | [c] => [c]
    | c :: rest => c :: '.' :: rest
  let sign := if exponent < 0 then "-" else plus
  mantissa ++ 'e' :: (sign ++ toString exponent.natAbs).toList

/-- The layout of a finite double: the text of zero, and of digits by their position. -/
def layout (zeroText : String) (write : Digits → List Char) : Double → String
  | .nan => "NaN"
  | .infinite negative => if negative then "-inf" else "inf"
  | .finite negative significand exponent =>
    let sign := if negative then "-" else ""
    if significand = 0 then sign ++ zeroText
    else sign ++ String.ofList (write (shortest significand exponent).trimmed)

/-- Plain text: no exponent, and no fraction for whole numbers. -/
def text : Double → String := layout "0" fun d => d.positional []

/-- Text that always shows a fraction or an exponent: positional while the point stands at
`leastPoint` or above and the number is below `1e16`. -/
def markedText (leastPoint : Int) (plus : String) : Double → String :=
  layout "0.0" fun d =>
    if d.point < leastPoint || 16 < d.point then d.scientific plus
    else d.positional ['.', '0']

/-- The text in a value's structural form, positional from `1e-4` on. -/
def explicitText : Double → String := markedText (-3) ""

/-- The text in a JSON document, positional from `1e-5` on. -/
def jsonText : Double → String := markedText (-4) "+"

end Double

end PubSub
