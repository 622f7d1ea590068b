import PubSub.Text.Utf8

/-! # Hexadecimal text of bytes

Two lower-case digits a byte.
-/

namespace PubSub

namespace Hex

def digit (n : Nat) : Char :=
  if n < 10 then Char.ofNat (48 + n) else Char.ofNat (87 + n)

def value? (c : Char) : Option Nat :=
  if '0' ≤ c ∧ c ≤ '9' then some (c.toNat - 48)
  else if 'a' ≤ c ∧ c ≤ 'f' then some (c.toNat - 87)
  else if 'A' ≤ c ∧ c ≤ 'F' then some (c.toNat - 55)
  else none

def byte (b : UInt8) : List Char := [digit (b.toNat / 16), digit (b.toNat % 16)]

def encode (bytes : Bytes) : String := String.ofList (bytes.flatMap byte)

def decodeChars? : List Char → Option Bytes
  | [] => some []
  | [_] => none
  | a :: b :: rest => do
    let high ← value? a
    let low ← value? b
    let bytes ← decodeChars? rest
    some (UInt8.ofNat (high * 16 + low) :: bytes)

def decode? (s : String) : Option Bytes := decodeChars? s.toList

/-- The digits of a number, without zeros in front. -/
def ofNat (n : Nat) : String := String.ofList (Nat.toDigits 16 n)

/-- A number with zeros in front up to the given width. -/
def padded (width n : Nat) : String :=
  let digits := Nat.toDigits 16 n
  String.ofList (List.replicate (width - digits.length) '0' ++ digits)

end Hex

end PubSub
