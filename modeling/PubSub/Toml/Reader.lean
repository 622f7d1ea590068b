import PubSub.Toml.Number
import PubSub.Toml.Table

/-! # Reading configuration files

A configuration file is a list of lines: headers, keys with their values, and
comments. It is read into the same values as a JSON document.
-/

namespace PubSub

namespace Toml

/-- Values between brackets, over several lines; a comma may stand at the end. -/
def listRest (value : Reader Json) : Nat → List Json → Reader (List Json)
  | 0, _, _ => none
  | fuel + 1, out, s =>
    match skipLines s.length s with
    | ']' :: rest => some (out.reverse, rest)
    | s => do
      let (v, rest) ← value s
      match skipLines rest.length rest with
      | ',' :: rest => listRest value fuel (v :: out) rest
      | ']' :: rest => some ((v :: out).reverse, rest)
      | _ => none

/-- A key, an equals sign, and a value. -/
def assignment (value : Reader Json) : Reader (List String × Json) := fun s => do
  let (keys, rest) ← dottedKey s
  match rest with
  | '=' :: rest => (value (skipBlanks rest)).map fun (v, rest) => ((keys, v), rest)
  | _ => none

/-- Sets the value that a dotted key leads to. -/
def Table.assign (keys : List String) (v : Json) (t : Table) : Option Table := do
  t.insert keys.dropLast (← keys.getLast?) v

/-- Assignments between braces, on one line; no comma at the end. -/
def inlineRest (value : Reader Json) : Nat → Table → Reader Table
  | 0, _, _ => none
  | fuel + 1, t, s => do
    let ((keys, v), rest) ← assignment value s
    let t ← t.assign keys v
    match skipBlanks rest with
    | ',' :: rest => inlineRest value fuel t rest
    | '\x7d' :: rest => some (t, rest)
    | _ => none

def inlineTable (value : Reader Json) : Reader Table := fun s =>
  match skipBlanks s with
  | '\x7d' :: rest => some ([], rest)
  | s => inlineRest value (s.length + 1) [] s

def scalar : Reader Json
  | 't' :: 'r' :: 'u' :: 'e' :: rest => some (.bool true, rest)
  | 'f' :: 'a' :: 'l' :: 's' :: 'e' :: rest => some (.bool false, rest)
  | '"' :: rest => (string ('"' :: rest)).map fun (s, rest) => (.text s, rest)
  | '\'' :: rest => (string ('\'' :: rest)).map fun (s, rest) => (.text s, rest)
  | s => numeric s

/-- A value with at most `depth` brackets around any part of it. -/
def value : (depth : Nat) → Reader Json
  | 0 => scalar
  | depth + 1 => fun
    | '[' :: rest =>
      (listRest (value depth) (rest.length + 1) [] rest).map fun (vs, rest) => (.list vs, rest)
    | '\x7b' :: rest =>
      (inlineTable (value depth) rest).map fun (t, rest) => (t.toJson, rest)
    | s => scalar s

/-- A document in the course of reading: its tables, and the path of the current one. -/
structure Document where
  root : Table
  current : List String

/-- A header after its opening brackets. -/
def header (close : List Char) (f : Option Item → Option Item) (d : Document) :
    Reader Document := fun s => do
  let (keys, rest) ← dottedKey s
  let key ← keys.getLast?
  if close.isPrefixOf rest then
    some (⟨← d.root.alterAt keys.dropLast key f, keys⟩, rest.drop close.length)
  else none

/-- What stands on a line before a comment. -/
def line (d : Document) : Reader Document := fun s =>
  match skipBlanks s with
  | '[' :: '[' :: rest => header [']', ']'] Table.repeated d rest
  | '[' :: rest => header [']'] Table.state d rest
  | c :: rest =>
    if c = '#' || c = '\n' || c = '\r' then some (d, c :: rest)
    else do
      let ((keys, v), rest) ← assignment (value depthLimit) (c :: rest)
      some ({ d with root := ← d.root.within d.current (·.assign keys v) }, rest)
  | [] => some (d, [])

def lines : Nat → Document → List Char → Option Document
  | 0, _, _ => none
  | _, d, [] => some d
  | fuel + 1, d, s => do
    let (d, rest) ← line d s
    lines fuel d (← endLine? rest)

/-- A mark of the byte order may stand at the front. -/
def skipMark : List Char → List Char
  | '\uFEFF' :: rest => rest
  | s => s

/-- Reads a whole file. -/
def read? (s : String) : Option Json := do
  let s := skipMark s.toList
  let d ← lines (s.length + 1) ⟨[], []⟩ s
  some d.root.toJson

end Toml

end PubSub
