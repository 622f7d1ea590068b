import PubSub.Text.Hex
import PubSub.Text.Unprintable

/-! # Quoted text

A text in double quotes shows every character that has no shape of its own by
an escape. Bytes in quotes show printable ASCII and escape all else.
-/

namespace PubSub

namespace Quoted

def escape (c : Char) : String :=
  match c with
  | '\x00' => "\\0"
  | '\t' => "\\t"
  | '\r' => "\\r"
  | '\n' => "\\n"
  | '"' => "\\\""
  | '\\' => "\\\\"
  | c =>
    if ' ' ≤ c ∧ c ≤ '~' then c.toString
    else if Unprintable.contains c then "\\u\x7b" ++ Hex.ofNat c.toNat ++ "\x7d"
    else c.toString

def text (s : String) : String := s.foldl (fun out c => out ++ escape c) "\"" ++ "\""

def escapeByte (b : UInt8) : String :=
  if b = 0 then "\\0"
  else if b = 9 then "\\t"
  else if b = 10 then "\\n"
  else if b = 13 then "\\r"
  else if b = 34 then "\\\""
  else if b = 92 then "\\\\"
  else if 32 ≤ b ∧ b < 127 then (Char.ofNat b.toNat).toString
  else "\\x" ++ Hex.padded 2 b.toNat

def bytes (bs : Bytes) : String :=
  bs.foldl (fun out b => out ++ escapeByte b) "b\"" ++ "\""

end Quoted

end PubSub
