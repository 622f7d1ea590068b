import PubSub.Number.Decimal
import PubSub.Text.Hex

/-! # JSON documents

Whole numbers keep their value within 64 bits, all other numbers are doubles.
An object holds its members in the order of their keys, one for each key.
-/

namespace PubSub

inductive Json where
  | null
  | bool (b : Bool)
  | int (n : Int)
  | double (d : Double)
  | text (s : String)
  | list (items : List Json)
  | object (members : List (String × Json))
  deriving Inhabited, Repr

namespace Json

/-- Puts a member at its place; a member of the same key gives way. -/
def insertMember (key : String) (value : Json) : List (String × Json) → List (String × Json)
  | [] => [(key, value)]
  | (k, v) :: rest =>
    if key < k then (key, value) :: (k, v) :: rest
    else if key = k then (key, value) :: rest
    else (k, v) :: insertMember key value rest

def ofMembers (members : List (String × Json)) : Json :=
  .object (members.foldl (fun sorted (k, v) => insertMember k v sorted) [])

def member? (j : Json) (key : String) : Option Json :=
  match j with
  | .object members => (members.find? (·.1 == key)).map (·.2)
  | _ => none

def escape (c : Char) : String :=
  match c with
  | '"' => "\\\""
  | '\\' => "\\\\"
  | '\n' => "\\n"
  | '\r' => "\\r"
  | '\t' => "\\t"
  | '\x08' => "\\b"
  | '\x0c' => "\\f"
  | c => if c.toNat < 32 then "\\u" ++ Hex.padded 4 c.toNat else c.toString

def quote (s : String) : String :=
  s.foldl (fun out c => out ++ escape c) "\"" ++ "\""

mutual

/-- The document without blanks, object members in the order of their keys. -/
def write : Json → String
  | null => "null"
  | bool b => if b then "true" else "false"
  | int n => toString n
  | double (.finite negative significand exponent) =>
    Double.jsonText (.finite negative significand exponent)
  | double _ => "null"
  | text s => quote s
  | list items => "[" ++ writeItems items ++ "]"
  | object members => "\x7b" ++ writeMembers members ++ "\x7d"

def writeItems : List Json → String
  | [] => ""
  | [item] => write item
  | item :: rest => write item ++ "," ++ writeItems rest

def writeMembers : List (String × Json) → String
  | [] => ""
  | [(key, value)] => quote key ++ ":" ++ write value
  | (key, value) :: rest => quote key ++ ":" ++ write value ++ "," ++ writeMembers rest

end

end Json

end PubSub
