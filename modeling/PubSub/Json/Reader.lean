import PubSub.Json

/-! # Reading JSON documents

The grammar is read strictly: no blanks but the four of the grammar, no zeros
in front, no lone surrogates, at most 127 nested lists and objects, and no
number beyond the doubles.
-/

namespace PubSub

namespace Json

/-- Reads a value from the front of a text and leaves the rest. -/
abbrev Reader (α : Type) := List Char → Option (α × List Char)

def isBlank (c : Char) : Bool := c = ' ' || c = '\t' || c = '\n' || c = '\r'

def skipBlanks (s : List Char) : List Char := s.dropWhile isBlank

def unit16 : Reader Nat
  | a :: b :: c :: d :: rest => do
    let a ← Hex.value? a
    let b ← Hex.value? b
    let c ← Hex.value? c
    let d ← Hex.value? d
    some (((a * 16 + b) * 16 + c) * 16 + d, rest)
  | _ => none

/-- What follows a backslash; two escaped surrogates make one character. -/
def escaped : Reader Char
  | '"' :: rest => some ('"', rest)
  | '\\' :: rest => some ('\\', rest)
  | '/' :: rest => some ('/', rest)
  | 'b' :: rest => some ('\x08', rest)
  | 'f' :: rest => some ('\x0c', rest)
  | 'n' :: rest => some ('\n', rest)
  | 'r' :: rest => some ('\r', rest)
  | 't' :: rest => some ('\t', rest)
  | 'u' :: rest => do
    let (high, rest) ← unit16 rest
    if high < 0xD800 || 0xDFFF < high then some (Char.ofNat high, rest)
    else if 0xDC00 ≤ high then none
    else
      match rest with
      | '\\' :: 'u' :: rest => do
        let (low, rest) ← unit16 rest
        if low < 0xDC00 || 0xDFFF < low then none
        else some (Char.ofNat (0x10000 + (high - 0xD800) * 1024 + (low - 0xDC00)), rest)
      | _ => none
  | _ => none

/-- The characters of a string after its opening quote, at most `fuel` of them. -/
def stringRest : Nat → List Char → Reader (List Char)
  | _, _, [] => none
  | 0, _, _ => none
  | _, out, '"' :: rest => some (out.reverse, rest)
  | fuel + 1, out, '\\' :: rest => do
    let (c, rest) ← escaped rest
    stringRest fuel (c :: out) rest
  | fuel + 1, out, c :: rest =>
    if c.toNat < 32 then none else stringRest fuel (c :: out) rest

def string (s : List Char) : Option (String × List Char) :=
  (stringRest (s.length + 1) [] s).map fun (cs, rest) => (String.ofList cs, rest)

def isDigit (c : Char) : Bool := '0' ≤ c && c ≤ '9'

def digits (s : List Char) : List Char × List Char := s.span isDigit

/-- Appends digits to a number while it has 64 bits, and counts them; the others are left. -/
def appendDigits (value count : Nat) : List Char → Nat × Nat × List Char
  | [] => (value, count, [])
  | c :: rest =>
    let longer := value * 10 + (c.toNat - 48)
    if longer < Nat.pow 2 64 then appendDigits longer (count + 1) rest
    else (value, count, c :: rest)

/-- The greatest power of ten that is a double. -/
def greatestPower : Nat := 308

def power (exponent : Nat) : Double := Double.ofDecimal false 1 exponent

/-- Division by a power of ten, by the greatest one at most in each step. -/
def divided : Nat → Double → Nat → Double
  | 0, d, _ => d
  | steps + 1, d, exponent =>
    if exponent ≤ greatestPower then d.div (power exponent)
    else if d.isZero then d
    else divided steps (d.div (power greatestPower)) (exponent - greatestPower)

/-- A significand of 64 bits times a power of ten. Every step rounds; none if out of range. -/
def scaled? (significand : Nat) (exponent : Int) : Option Double :=
  let d := Double.ofNat significand
  if exponent < 0 then some (divided 4 d (-exponent).toNat)
  else if exponent ≤ greatestPower then
    match d.mul (power exponent.toNat) with
    | .infinite _ => none
    | product => some product
  else if significand = 0 then some d
  else none

/-- The greatest exponent that is read as a number. -/
def greatestExponent : Nat := Nat.pow 2 31 - 1

/-- The exponent part, if there is one. -/
def exponentPart (significand : Nat) (exponent : Int) : Reader Double
  | e :: rest =>
    if e = 'e' ∨ e = 'E' then
      let (falling, rest) : Bool × List Char := match rest with
        | '+' :: rest => (false, rest)
        | '-' :: rest => (true, rest)
        | rest => (false, rest)
      let (ds, rest) := digits rest
      let shift : Nat := ds.foldl (fun n c => n * 10 + (c.toNat - 48)) 0
      if ds.isEmpty then none
      else if greatestExponent < shift then
        if significand ≠ 0 ∧ !falling then none else some (Double.zero false, rest)
      else do
        let d ← scaled? significand (if falling then exponent - shift else exponent + shift)
        some (d, rest)
    else (scaled? significand exponent).map (·, e :: rest)
  | [] => (scaled? significand exponent).map (·, [])

/-- A whole number in 64 bits, or the double of one that is out of their range. -/
def whole (negative : Bool) (value : Nat) : Json :=
  if !negative then .int value
  else if value = 0 ∨ Nat.pow 2 63 < value then .double ((Double.ofNat value).withSign true)
  else .int (-value)

/-- A number after its sign. -/
def unsigned (negative : Bool) : Reader Json := fun s =>
  let (ds, rest) := digits s
  let leadingZero : Bool := match ds with
    | '0' :: _ :: _ => true
    | _ => false
  if ds.isEmpty || leadingZero then none
  else
    let (value, _, dropped) := appendDigits 0 0 ds
    let signed : Double × List Char → Json × List Char :=
      fun (d, rest) => (.double (d.withSign negative), rest)
    match rest with
    | '.' :: rest =>
      let (ds, rest) := digits rest
      if ds.isEmpty then none
      else
        let (value, count, _) := appendDigits value 0 ds
        (exponentPart value (dropped.length - count) rest).map signed
    | c :: _ =>
      if c = 'e' || c = 'E' || !dropped.isEmpty then
        (exponentPart value dropped.length rest).map signed
      else some (whole negative value, rest)
    | [] =>
      if dropped.isEmpty then some (whole negative value, rest)
      else (exponentPart value dropped.length rest).map signed

def keyword (word : List Char) (value : Json) : Reader Json := fun s =>
  if word.isPrefixOf s then some (value, s.drop word.length) else none

/-- A value that is no list and no object. -/
def scalar : Reader Json
  | '"' :: rest => (string rest).map fun (s, rest) => (.text s, rest)
  | '-' :: rest => unsigned true rest
  | 'n' :: rest => keyword "ull".toList .null rest
  | 't' :: rest => keyword "rue".toList (.bool true) rest
  | 'f' :: rest => keyword "alse".toList (.bool false) rest
  | s => unsigned false s

/-- Items, commas between them, up to the closing character; at most `fuel` of them. -/
def sequence {α : Type} (close : Char) (item : Reader α) : Nat → List α → Reader (List α)
  | 0, _, _ => none
  | fuel + 1, out, s => do
    let (x, rest) ← item (skipBlanks s)
    match skipBlanks rest with
    | ',' :: rest => sequence close item fuel (x :: out) rest
    | c :: rest => if c = close then some ((x :: out).reverse, rest) else none
    | [] => none

/-- A bracketed sequence after its opening character. -/
def bracketed {α : Type} (close : Char) (item : Reader α) : Reader (List α) := fun s =>
  match skipBlanks s with
  | [] => none
  | c :: rest =>
    if c = close then some ([], rest) else sequence close item (s.length + 1) [] (c :: rest)

def member (value : Reader Json) : Reader (String × Json)
  | '"' :: rest => do
    let (key, rest) ← string rest
    match skipBlanks rest with
    | ':' :: rest => do
      let (v, rest) ← value (skipBlanks rest)
      some ((key, v), rest)
    | _ => none
  | _ => none

/-- A value with at most `depth` lists and objects around any part of it. -/
def value : (depth : Nat) → Reader Json
  | 0 => scalar
  | depth + 1 => fun
    | '[' :: rest => (bracketed ']' (value depth) rest).map fun (xs, rest) => (.list xs, rest)
    | '\x7b' :: rest =>
      (bracketed '\x7d' (member (value depth)) rest).map fun (ms, rest) => (ofMembers ms, rest)
    | s => scalar s

/-- How many lists and objects may be around a part of a document. -/
def depthLimit : Nat := 127

/-- Reads a whole document. -/
def read? (s : String) : Option Json := do
  let (v, rest) ← value depthLimit (skipBlanks s.toList)
  if (skipBlanks rest).isEmpty then some v else none

end Json

end PubSub
