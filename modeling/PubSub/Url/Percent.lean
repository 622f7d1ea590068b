import PubSub.Text.Hex

/-! # Percent encoding

A byte that may not stand in a part of a URL is written as a percent sign and
two digits. Which bytes those are depends on the part.
-/

namespace PubSub

namespace Percent

/-- Controls and everything beyond ASCII; encoded in every part. -/
def isControl (b : UInt8) : Bool := b < 0x20 || 0x7F ≤ b

/-- What is encoded in a user name or password. -/
def isReservedInUserinfo (b : UInt8) : Bool :=
  isControl b || (" \"#<>?`\x7b\x7d/:;=@[\\]^|".toList.any fun c => c.toNat = b.toNat)

def upperDigit (n : Nat) : Char := if n < 10 then Char.ofNat (48 + n) else Char.ofNat (55 + n)

def encodeByte (reserved : UInt8 → Bool) (b : UInt8) : List Char :=
  if reserved b then ['%', upperDigit (b.toNat / 16), upperDigit (b.toNat % 16)]
  else [Char.ofNat b.toNat]

def encode (reserved : UInt8 → Bool) (s : List Char) : List Char :=
  (s.flatMap String.utf8EncodeChar).flatMap (encodeByte reserved)

/-- The bytes of a text whose percent signs with two digits stand for bytes. -/
def decode : List Char → Bytes
  | '%' :: a :: b :: rest =>
    match Hex.value? a, Hex.value? b with
    | some high, some low => UInt8.ofNat (high * 16 + low) :: decode rest
    | _, _ => 37 :: decode (a :: b :: rest)
  | c :: rest => String.utf8EncodeChar c ++ decode rest
  | [] => []

end Percent

end PubSub
