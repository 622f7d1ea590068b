import PubSub.Text.Hex

/-! # Texts and keys in configuration files

Blanks, comments and line ends, the four kinds of strings, and dotted keys. A
line ends in a line feed, with or without a carriage return before it.
-/

namespace PubSub

namespace Toml

/-- Reads a value from the front of a text and leaves the rest. -/
abbrev Reader (α : Type) := List Char → Option (α × List Char)

def isBlank (c : Char) : Bool := c = ' ' || c = '\t'

def skipBlanks (s : List Char) : List Char := s.dropWhile isBlank

/-- May stand in a comment or a string: a tab, and everything that is no ASCII control. -/
def isPlain (c : Char) : Bool := c = '\t' || (0x20 ≤ c.toNat && c.toNat ≠ 0x7F)

/-- What follows a line end. -/
def lineEnd? : List Char → Option (List Char)
  | '\n' :: rest => some rest
  | '\r' :: '\n' :: rest => some rest
  | _ => none

def skipComment : List Char → List Char
  | '#' :: rest => rest.dropWhile isPlain
  | s => s

/-- What follows a line of which nothing but a comment is left. -/
def endLine? (s : List Char) : Option (List Char) :=
  match skipComment (skipBlanks s) with
  | [] => some []
  | rest => lineEnd? rest

/-- Skips blanks, comments and line ends, at most `fuel` lines of them. -/
def skipLines : Nat → List Char → List Char
  | 0, s => s
  | fuel + 1, s =>
    match lineEnd? (skipComment (skipBlanks s)) with
    | some rest => skipLines fuel rest
    | none => skipBlanks s

/-- A number of exactly `count` hexadecimal digits. -/
def hexDigits : Nat → Nat → Reader Nat
  | 0, n, rest => some (n, rest)
  | count + 1, n, c :: rest => do hexDigits count (n * 16 + (← Hex.value? c)) rest
  | _ + 1, _, [] => none

def isScalar (n : Nat) : Bool := n < 0xD800 || (0xDFFF < n && n < 0x110000)

def codePoint (count : Nat) : Reader Char := fun s => do
  let (n, rest) ← hexDigits count 0 s
  if isScalar n then some (Char.ofNat n, rest) else none

/-- What follows a backslash. -/
def escaped : Reader Char
  | 'b' :: rest => some ('\x08', rest)
  | 't' :: rest => some ('\t', rest)
  | 'n' :: rest => some ('\n', rest)
  | 'f' :: rest => some ('\x0c', rest)
  | 'r' :: rest => some ('\r', rest)
  | '"' :: rest => some ('"', rest)
  | '\\' :: rest => some ('\\', rest)
  | 'u' :: rest => codePoint 4 rest
  | 'U' :: rest => codePoint 8 rest
  | _ => none

/-- A string on one line after its opening quote, at most `fuel` characters of it. -/
def lineString (quote : Char) (escapes : Bool) : Nat → List Char → Reader (List Char)
  | 0, _, _ => none
  | _, _, [] => none
  | fuel + 1, out, c :: rest =>
    if c = quote then some (out.reverse, rest)
    else if c = '\\' && escapes then do
      let (c, rest) ← escaped rest
      lineString quote escapes fuel (c :: out) rest
    else if isPlain c then lineString quote escapes fuel (c :: out) rest
    else none

/-- What follows a backslash at the end of a line: the next text, whatever blanks precede it. -/
def continued? (s : List Char) : Option (List Char) :=
  (lineEnd? (skipBlanks s)).map fun rest =>
    rest.dropWhile fun c => isBlank c || c = '\n' || c = '\r'

/-- A string of several lines after its opening quotes. It ends at three quotes, before which
one or two more may stand. -/
def blockString (quote : Char) (escapes : Bool) : Nat → List Char → Reader (List Char)
  | 0, _, _ => none
  | _, _, [] => none
  | fuel + 1, out, c :: rest =>
    if c = quote then
      let count := ((c :: rest).takeWhile (· = quote)).length
      if count < 3 then blockString quote escapes fuel (c :: out) rest
      else
        let extra := min (count - 3) 2
        some ((List.replicate extra quote ++ out).reverse, rest.drop (extra + 2))
    else if c = '\\' && escapes then
      match continued? rest with
      | some rest => blockString quote escapes fuel out rest
      | none => do
        let (c, rest) ← escaped rest
        blockString quote escapes fuel (c :: out) rest
    else
      match lineEnd? (c :: rest) with
      | some rest => blockString quote escapes fuel ('\n' :: out) rest
      | none => if isPlain c then blockString quote escapes fuel (c :: out) rest else none

def asString (read : Nat → List Char → Reader (List Char)) : Reader String := fun s =>
  (read (s.length + 1) [] s).map fun (cs, rest) => (String.ofList cs, rest)

/-- A line end right after the opening quotes does not count. -/
def skipFirstLine (s : List Char) : List Char := (lineEnd? s).getD s

def string : Reader String
  | '"' :: '"' :: '"' :: rest => asString (blockString '"' true) (skipFirstLine rest)
  | '"' :: rest => asString (lineString '"' true) rest
  | '\'' :: '\'' :: '\'' :: rest => asString (blockString '\'' false) (skipFirstLine rest)
  | '\'' :: rest => asString (lineString '\'' false) rest
  | _ => none

def isBareKey (c : Char) : Bool := c.isAlphanum || c = '_' || c = '-'

def simpleKey : Reader String
  | '"' :: rest => asString (lineString '"' true) rest
  | '\'' :: rest => asString (lineString '\'' false) rest
  | s =>
    match s.span isBareKey with
    | ([], _) => none
    | (key, rest) => some (String.ofList key, rest)

/-- How deep a key leads at most. -/
def depthLimit : Nat := 79

/-- The parts of a dotted key, with blanks around them. -/
def keyParts : Nat → Reader (List String)
  | 0, _ => none
  | depth + 1, s => do
    let (key, rest) ← simpleKey (skipBlanks s)
    match skipBlanks rest with
    | '.' :: rest => do
      let (keys, rest) ← keyParts depth rest
      some (key :: keys, rest)
    | rest => some ([key], rest)

def dottedKey : Reader (List String) := keyParts depthLimit

end Toml

end PubSub
