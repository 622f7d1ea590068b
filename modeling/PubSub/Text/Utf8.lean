/-! # UTF-8

Decoding accepts exactly the well-formed sequences: no overlong forms, no
surrogates, nothing above `U+10FFFF`, no sequence cut short. A failure says
where it is and how many bytes it spoils.
-/

namespace PubSub

abbrev Bytes := List UInt8

namespace Utf8

inductive Failure where
  /-- `length` bytes from `index` on can begin no character. -/
  | invalid (length index : Nat)
  /-- The bytes end within the character that begins at `index`. -/
  | incomplete (index : Nat)
  deriving DecidableEq, Repr

def Failure.message : Failure → String
  | invalid length index => s!"invalid utf-8 sequence of {length} bytes from index {index}"
  | incomplete index => s!"incomplete utf-8 byte sequence from index {index}"

def isContinuation (b : UInt8) : Bool := 0x80 ≤ b && b ≤ 0xBF

/-- The second byte of a three-byte character: no overlong form, no surrogate. -/
def isSecondOfThree (a b : UInt8) : Bool :=
  if a = 0xE0 then 0xA0 ≤ b && b ≤ 0xBF
  else if a = 0xED then 0x80 ≤ b && b ≤ 0x9F
  else isContinuation b

/-- The second byte of a four-byte character: no overlong form, nothing above the last plane. -/
def isSecondOfFour (a b : UInt8) : Bool :=
  if a = 0xF0 then 0x90 ≤ b && b ≤ 0xBF
  else if a = 0xF4 then 0x80 ≤ b && b ≤ 0x8F
  else isContinuation b

def join2 (a b : UInt8) : Char := Char.ofNat ((a.toNat - 0xC0) * 64 + (b.toNat - 0x80))

def join3 (a b c : UInt8) : Char :=
  Char.ofNat ((a.toNat - 0xE0) * 4096 + (b.toNat - 0x80) * 64 + (c.toNat - 0x80))

def join4 (a b c d : UInt8) : Char :=
  Char.ofNat ((a.toNat - 0xF0) * 262144 + (b.toNat - 0x80) * 4096 + (c.toNat - 0x80) * 64 +
    (d.toNat - 0x80))

/-- The characters of a byte sequence that starts at `index` of the whole. -/
def decodeFrom (index : Nat) : Bytes → Except Failure (List Char)
  | [] => .ok []
  | a :: rest =>
    if a < 0x80 then (Char.ofNat a.toNat :: ·) <$> decodeFrom (index + 1) rest
    else if a < 0xC2 then .error (.invalid 1 index)
    else if a < 0xE0 then
      match rest with
      | [] => .error (.incomplete index)
      | b :: rest =>
        if !isContinuation b then .error (.invalid 1 index)
        else (join2 a b :: ·) <$> decodeFrom (index + 2) rest
    else if a < 0xF0 then
      match rest with
      | [] => .error (.incomplete index)
      | b :: rest =>
        if !isSecondOfThree a b then .error (.invalid 1 index)
        else
          match rest with
          | [] => .error (.incomplete index)
          | c :: rest =>
            if !isContinuation c then .error (.invalid 2 index)
            else (join3 a b c :: ·) <$> decodeFrom (index + 3) rest
    else if a < 0xF5 then
      match rest with
      | [] => .error (.incomplete index)
      | b :: rest =>
        if !isSecondOfFour a b then .error (.invalid 1 index)
        else
          match rest with
          | [] => .error (.incomplete index)
          | c :: rest =>
            if !isContinuation c then .error (.invalid 2 index)
            else
              match rest with
              | [] => .error (.incomplete index)
              | d :: rest =>
                if !isContinuation d then .error (.invalid 3 index)
                else (join4 a b c d :: ·) <$> decodeFrom (index + 4) rest
    else .error (.invalid 1 index)

def decode (bytes : Bytes) : Except Failure String :=
  String.ofList <$> decodeFrom 0 bytes

def encode (s : String) : Bytes := s.toList.flatMap String.utf8EncodeChar

end Utf8

end PubSub
