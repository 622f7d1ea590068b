import PubSub.Url
import PubSub.Url.Percent

/-! # Hosts

A host in brackets is an IPv6 address and is written in its normal form. In a
special scheme any other host is a domain or an IPv4 address; in all other
schemes it is opaque, its case is kept, and only controls and characters beyond
ASCII are encoded.
-/

namespace PubSub

namespace Host

/-- Cuts a text at every occurrence of a character. -/
def cut (separator : Char) : List Char → List (List Char)
  | [] => [[]]
  | c :: rest =>
    if c = separator then [] :: cut separator rest
    else
      match cut separator rest with
      | part :: parts => (c :: part) :: parts
      | [] => [[c]]

def decimal? (s : List Char) : Option Nat :=
  if s.isEmpty || !s.all Char.isDigit then none
  else some (s.foldl (fun n c => n * 10 + (c.toNat - 48)) 0)

def hexadecimal? (s : List Char) : Option Nat := do
  let values ← s.mapM Hex.value?
  if values.isEmpty then none else some (values.foldl (fun n d => n * 16 + d) 0)

/-- The two pieces of an IPv4 address at the end of an IPv6 address. -/
def dottedPieces? (s : List Char) : Option (List Nat) :=
  match cut '.' s with
  | [a, b, c, d] => do
    let part (p : List Char) : Option Nat := do
      let n ← decimal? p
      if 255 < n || (1 < p.length && p.head? = some '0') then none else some n
    let a ← part a
    let b ← part b
    let c ← part c
    let d ← part d
    some [a * 256 + b, c * 256 + d]
  | _ => none

def piece? (s : List Char) : Option Nat := if 4 < s.length then none else hexadecimal? s

/-- The pieces of one side of an IPv6 address; the last side may end in a dotted address. -/
def pieces? (allowDotted : Bool) (s : List Char) : Option (List Nat) :=
  if s.isEmpty then some []
  else
    let parts := cut ':' s
    match parts.getLast? with
    | none => some []
    | some last =>
      if allowDotted && last.contains '.' then do
        let front ← parts.dropLast.mapM piece?
        let back ← dottedPieces? last
        some (front ++ back)
      else parts.mapM piece?

/-- Cuts a text at its first double colon. -/
def cutDoubleColon : List Char → Option (List Char × List Char)
  | ':' :: ':' :: rest => some ([], rest)
  | c :: rest => (cutDoubleColon rest).map fun (a, b) => (c :: a, b)
  | [] => none

/-- The eight pieces of an IPv6 address. -/
def ipv6? (s : List Char) : Option (List Nat) :=
  match cutDoubleColon s with
  | none => do
    let pieces ← pieces? true s
    if pieces.length = 8 && !s.isEmpty then some pieces else none
  | some (left, right) => do
    let front ← pieces? false left
    let back ← pieces? true right
    let count := front.length + back.length
    if count ≤ 7 then some (front ++ List.replicate (8 - count) 0 ++ back) else none

/-- How many zeros a list starts with. -/
def zerosAt (pieces : List Nat) : Nat := (pieces.takeWhile (· = 0)).length

/-- The place and length of the first longest run of zeros. -/
def longestZeros (pieces : List Nat) : Nat × Nat :=
  (List.range pieces.length).foldl
    (fun best i =>
      let run := zerosAt (pieces.drop i)
      if best.2 < run then (i, run) else best)
    (0, 0)

def joinPieces (pieces : List Nat) : String := ":".intercalate (pieces.map Hex.ofNat)

/-- The normal form: the first longest run of at least two zeros is left out. -/
def ipv6Text (pieces : List Nat) : String :=
  let (start, length) := longestZeros pieces
  if length < 2 then joinPieces pieces
  else joinPieces (pieces.take start) ++ "::" ++ joinPieces (pieces.drop (start + length))

def bracketed (s : List Char) : Except UrlError String :=
  if s.getLast? ≠ some ']' then .error .invalidIpv6
  else
    match ipv6? (s.drop 1).dropLast with
    | none => .error .invalidIpv6
    | some pieces => .ok s!"[{ipv6Text pieces}]"

/-- What may stand in no host. -/
def isForbidden (c : Char) : Bool := "\x00\t\n\r #/:<>?@[\\]^|".toList.contains c

def opaqueHost (s : List Char) : Except UrlError String :=
  if s.head? = some '[' then bracketed s
  else if s.any isForbidden then .error .invalidHostCharacter
  else .ok (String.ofList (Percent.encode Percent.isControl s))

/-- What an IPv4 address may have as a part: a number in base ten, eight or sixteen. -/
inductive Ipv4Part where
  | number (n : Nat)
  | tooLarge
  | notANumber
  deriving DecidableEq

def ipv4Number (base : Nat) (s : List Char) : Ipv4Part :=
  match s.mapM Hex.value? with
  | none => .notANumber
  | some values =>
    if values.any (base ≤ ·) then .notANumber
    else
      let n := values.foldl (fun n d => n * base + d) 0
      if n < Nat.pow 2 32 then .number n else .tooLarge

def ipv4Part : List Char → Ipv4Part
  | [] => .notANumber
  | '0' :: 'x' :: rest => ipv4Number 16 rest
  | '0' :: 'X' :: rest => ipv4Number 16 rest
  | '0' :: c :: rest => ipv4Number 8 (c :: rest)
  | s => ipv4Number 10 s

/-- The parts of a dotted text; an empty part at the end does not count. -/
def dottedParts (s : List Char) : List (List Char) :=
  let parts := cut '.' s
  if 1 < parts.length && parts.getLast? = some [] then parts.dropLast else parts

def endsInNumber (s : List Char) : Bool :=
  match (dottedParts s).getLast? with
  | none => false
  | some last =>
    (!last.isEmpty && last.all Char.isDigit) || ipv4Part last ≠ .notANumber

def ipv4? (s : List Char) : Option Nat := do
  let parts := dottedParts s
  let numbers ← parts.mapM fun p => match ipv4Part p with
    | .number n => some n
    | _ => none
  let last ← numbers.getLast?
  let front := numbers.dropLast
  if 4 < parts.length || front.any (255 < ·) || Nat.pow 256 (4 - front.length) ≤ last then none
  else some (front.foldr (fun n rest => n + rest * 256) 0 * 256 + last)

/-- What may stand in no domain. -/
def isForbiddenInDomain (c : Char) : Bool :=
  isForbidden c || c.toNat < 0x20 || c.toNat = 0x7F || c = '%'

/-- The host of a special scheme. Labels that are no international domain names are let through:
services refuse all of these schemes, so that nothing but the text of the refusal depends on it. -/
def domain (s : List Char) : Except UrlError String :=
  if s.head? = some '[' then bracketed s
  else
    match Utf8.decode (Percent.decode s) with
    | .error _ => .error .invalidDomainName
    | .ok name =>
      if name.toList.any isForbiddenInDomain then .error .invalidDomainName
      else if name.isEmpty then .error .emptyHost
      else if endsInNumber name.toList then
        if (ipv4? name.toList).isSome then .ok name else .error .invalidIpv4
      else .ok (name.map Char.toLower)

end Host

end PubSub
