import PubSub.Json
import PubSub.Toml.Text

/-! # Numbers and times in configuration files

Whole numbers have 64 bits and a sign. Dates and times are checked, but no
setting is one: they are kept as an object of a member that no structure knows.
-/

namespace PubSub

namespace Toml

/-- Digits after the first one; an underscore may stand between two digits. -/
def moreDigits (isDigit : Char → Bool) : List Char → Reader (List Char)
  | out, '_' :: c :: rest => if isDigit c then moreDigits isDigit (c :: out) rest else none
  | _, ['_'] => none
  | out, c :: rest =>
    if isDigit c then moreDigits isDigit (c :: out) rest else some (out.reverse, c :: rest)
  | out, [] => some (out.reverse, [])

/-- One digit or more. -/
def digits (isDigit : Char → Bool) : Reader (List Char)
  | c :: rest => if isDigit c then moreDigits isDigit [c] rest else none
  | [] => none

def valueOf (base : Nat) (ds : List Char) : Nat :=
  ds.foldl (fun n c => n * base + (Hex.value? c).getD 0) 0

def isDecimal (c : Char) : Bool := c.isDigit

def isDigitOf (base : Nat) (c : Char) : Bool := (Hex.value? c).any (· < base)

/-- A sign, if there is one: whether it is a minus. -/
def sign : List Char → Bool × List Char
  | '-' :: rest => (true, rest)
  | '+' :: rest => (false, rest)
  | s => (false, s)

/-- A decimal number without zeros in front. -/
def decimal : Reader (List Char)
  | '0' :: rest => some (['0'], rest)
  | s => digits isDecimal s

/-- A whole number in the range of 64 bits with a sign. -/
def whole? (negative : Bool) (n : Nat) : Option Json :=
  if negative then if n ≤ Nat.pow 2 63 then some (.int (-n)) else none
  else if n < Nat.pow 2 63 then some (.int n) else none

def based (base : Nat) : Reader Json := fun s => do
  let (ds, rest) ← digits (isDigitOf base) s
  some (← whole? false (valueOf base ds), rest)

/-- The exponent of a number, if there is one. -/
def exponent : Reader (Option Int)
  | e :: rest =>
    if e = 'e' || e = 'E' then do
      let (negative, rest) := sign rest
      let (ds, rest) ← digits isDecimal rest
      let n : Int := valueOf 10 ds
      some (some (if negative then -n else n), rest)
    else some (none, e :: rest)
  | [] => some (none, [])

/-- A double beyond the range is refused, unless it is negative. -/
def double? (negative : Bool) (ds : List Char) (exponent : Int) : Option Json :=
  match Double.ofDecimal negative (valueOf 10 ds) exponent with
  | .infinite false => none
  | d => some (.double d)

/-- A decimal number, which is whole if it has no fraction and no exponent. -/
def decimalNumber : Reader Json := fun s => do
  let (negative, s) := sign s
  let (ds, rest) ← decimal s
  match rest with
  | '.' :: rest => do
    let (fraction, rest) ← digits isDecimal rest
    let (e, rest) ← exponent rest
    some (← double? negative (ds ++ fraction) (e.getD 0 - fraction.length), rest)
  | rest => do
    let (e, rest) ← exponent rest
    match e with
    | some e => some (← double? negative ds e, rest)
    | none => some (← whole? negative (valueOf 10 ds), rest)

/-- Infinity and no number, with or without a sign. -/
def special : Reader Json := fun s =>
  match sign s with
  | (negative, 'i' :: 'n' :: 'f' :: rest) => some (.double (.infinite negative), rest)
  | (_, 'n' :: 'a' :: 'n' :: rest) => some (.double .nan, rest)
  | _ => none

def number : Reader Json
  | '0' :: 'x' :: rest => based 16 rest
  | '0' :: 'o' :: rest => based 8 rest
  | '0' :: 'b' :: rest => based 2 rest
  | s => (special s).orElse fun _ => decimalNumber s

/-- A number of exactly `count` digits that lies between two bounds. -/
def fixed (count least greatest : Nat) : Reader Nat := fun s =>
  let ds := s.take count
  let n := valueOf 10 ds
  if ds.length = count && ds.all isDecimal && least ≤ n && n ≤ greatest then
    some (n, s.drop count)
  else none

def literal (c : Char) : Reader Unit
  | d :: rest => if c = d then some ((), rest) else none
  | [] => none

def isLeapYear (year : Nat) : Bool := year % 4 = 0 && (year % 100 ≠ 0 || year % 400 = 0)

def daysOf (year month : Nat) : Nat :=
  if month = 2 then if isLeapYear year then 29 else 28
  else if [4, 6, 9, 11].contains month then 30
  else 31

def date : Reader Unit := fun s => do
  let (year, s) ← fixed 4 0 9999 s
  let (_, s) ← literal '-' s
  let (month, s) ← fixed 2 1 12 s
  let (_, s) ← literal '-' s
  let (_, s) ← fixed 2 1 (daysOf year month) s
  some ((), s)

def secondFraction : Reader Unit
  | '.' :: rest =>
    match rest.span isDecimal with
    | ([], _) => none
    | (_, rest) => some ((), rest)
  | s => some ((), s)

def time : Reader Unit := fun s => do
  let (_, s) ← fixed 2 0 23 s
  let (_, s) ← literal ':' s
  let (_, s) ← fixed 2 0 59 s
  let (_, s) ← literal ':' s
  let (_, s) ← fixed 2 0 60 s
  secondFraction s

def offset : Reader Unit
  | 'Z' :: rest => some ((), rest)
  | 'z' :: rest => some ((), rest)
  | c :: rest =>
    if c = '+' || c = '-' then do
      let (_, s) ← fixed 2 0 23 rest
      let (_, s) ← literal ':' s
      let (_, s) ← fixed 2 0 59 s
      some ((), s)
    else some ((), c :: rest)
  | [] => some ((), [])

/-- The time after a date, if there is one. -/
def timeOfDay : Reader Unit
  | c :: rest =>
    if c = 'T' || c = 't' || c = ' ' then
      match time rest with
      | none => some ((), c :: rest)
      | some (_, rest) => offset rest
    else some ((), c :: rest)
  | [] => some ((), [])

def isDateStart (s : List Char) : Bool := (fixed 4 0 9999 s).any fun (_, s) => s.head? = some '-'

def isTimeStart (s : List Char) : Bool := (fixed 2 0 23 s).any fun (_, s) => s.head? = some ':'

/-- Stands for every date and time. -/
def instant : Json := .object [("datetime", .null)]

/-- A date, a time, or a number. -/
def numeric : Reader Json := fun s =>
  if isDateStart s then do
    let (_, s) ← date s
    let (_, s) ← timeOfDay s
    some (instant, s)
  else if isTimeStart s then (time s).map fun (_, s) => (instant, s)
  else number s

end Toml

end PubSub
