import PubSub.Url.Host

/-! # Parsing URLs

An absolute URL is read by the rules for its scheme. Controls and blanks around
it are dropped, and so are tabs and line ends anywhere in it.
-/

namespace PubSub

namespace Url

inductive SchemeKind where
  | file
  | special
  | ordinary
  deriving DecidableEq, Repr

def schemeKind (scheme : String) : SchemeKind :=
  if scheme = "file" then .file
  else if ["http", "https", "ws", "wss", "ftp"].contains scheme then .special
  else .ordinary

def defaultPort? (scheme : String) : Option Nat :=
  if scheme = "http" || scheme = "ws" then some 80
  else if scheme = "https" || scheme = "wss" then some 443
  else if scheme = "ftp" then some 21
  else none

def isTabOrLineEnd (c : Char) : Bool := c = '\t' || c = '\n' || c = '\r'

def isTrimmed (c : Char) : Bool := c ≤ ' '

/-- The characters of a URL text that count. -/
def significant (s : String) : List Char :=
  (((s.toList.dropWhile isTrimmed).reverse.dropWhile isTrimmed).reverse).filter
    (!isTabOrLineEnd ·)

def isSchemeChar (c : Char) : Bool :=
  c.isAlphanum || c = '+' || c = '-' || c = '.'

/-- The scheme in lower case, and what follows its colon. -/
def splitScheme? (s : List Char) : Option (String × List Char) :=
  match s with
  | [] => none
  | c :: _ =>
    if c.isAlpha then
      match s.span isSchemeChar with
      | (scheme, ':' :: rest) => some (String.ofList (scheme.map Char.toLower), rest)
      | _ => none
    else none

def isSlash (backslash : Bool) (c : Char) : Bool := c = '/' || (backslash && c = '\\')

/-- Where the authority ends. -/
def endsAuthority (backslash : Bool) (c : Char) : Bool :=
  isSlash backslash c || c = '?' || c = '#'

/-- Cuts a text at its last at sign. -/
def splitLastAt (s : List Char) : Option (List Char × List Char) :=
  match s.reverse.span (· ≠ '@') with
  | (after, _ :: before) => some (before.reverse, after.reverse)
  | (_, []) => none

/-- User name and password; the first colon ends the name, and an empty password is none. -/
def userinfo (s : List Char) : String × Option String :=
  let encode (cs : List Char) : String :=
    String.ofList (Percent.encode Percent.isReservedInUserinfo cs)
  match s.span (· ≠ ':') with
  | (name, _ :: password) =>
    (encode name, if password.isEmpty then none else some (encode password))
  | (name, []) => (encode name, none)

/-- Where a host ends: before a colon that is not in brackets. -/
def splitHost (inBrackets : Bool) : List Char → List Char × List Char
  | [] => ([], [])
  | c :: rest =>
    if c = ':' && !inBrackets then ([], c :: rest)
    else
      let inBrackets := if c = '[' then true else if c = ']' then false else inBrackets
      let (host, rest) := splitHost inBrackets rest
      (c :: host, rest)

/-- Digits of a port as far as a slash of either kind. -/
def portNumber? (n : Nat) : List Char → Option (Nat × List Char)
  | [] => some (n, [])
  | c :: rest =>
    if c.isDigit then
      let n := n * 10 + (c.toNat - 48)
      if 65535 < n then none else portNumber? n rest
    else if c = '\\' then some (n, c :: rest)
    else none

/-- The port after the host; none if it is absent, empty, or the default of the scheme. -/
def readPort (default : Option Nat) : List Char → Except UrlError (Option Nat × List Char)
  | ':' :: rest =>
    match portNumber? 0 rest with
    | none => .error .invalidPort
    | some (n, left) =>
      .ok (if left.length = rest.length || some n = default then none else some n, left)
  | rest => .ok (none, rest)

/-- A segment that begins with a drive letter, alone or before a backslash. -/
def startsWithDriveLetter : List Char → Bool
  | a :: b :: rest =>
    a.isAlpha && (b = ':' || b = '|') && (rest.isEmpty || rest.head? = some '\\')
  | _ => false

def isDoubleDot (segment : List Char) : Bool :=
  ["..", "%2e%2e", "%2e.", ".%2e"].contains (String.ofList (segment.map Char.toLower))

def isSingleDot (segment : List Char) : Bool :=
  [".", "%2e"].contains (String.ofList (segment.map Char.toLower))

/-- A path without the segment at its end, whose slash stays. -/
def dropSegment (path : List Char) : List Char :=
  (path.reverse.dropWhile (· ≠ '/')).reverse

/-- The path before a double dot, which takes away the segment before it, but no drive letter. -/
def parentPath (path : List Char) : List Char :=
  match path.reverse with
  | '/' :: before =>
    let segment := (before.takeWhile (· ≠ '/')).reverse
    if before.contains '/' && !startsWithDriveLetter segment then dropSegment before.reverse
    else path
  | _ => dropSegment path

/-- Appends the segments of a path, resolving those of dots. -/
def appendSegments (backslash : Bool) : Nat → List Char → List Char → List Char
  | 0, path, _ => path
  | fuel + 1, path, s =>
    match s.span (!isSlash backslash ·) with
    | (segment, rest) =>
      let path :=
        if isDoubleDot segment then
          let parent := parentPath path
          if !rest.isEmpty && parent.getLast? ≠ some '/' then parent ++ ['/'] else parent
        else if isSingleDot segment then
          if path.getLast? ≠ some '/' then path ++ ['/'] else path
        else if rest.isEmpty then path ++ segment
        else path ++ segment ++ ['/']
      match rest with
      | [] => path
      | _ :: rest => appendSegments backslash fuel path rest

/-- The path after the authority. -/
def resolvePath (kind : SchemeKind) (s : List Char) : List Char :=
  let backslash : Bool := kind ≠ .ordinary
  let s := s.takeWhile fun c => c ≠ '?' && c ≠ '#'
  match s with
  | [] => if backslash then ['/'] else []
  | c :: rest =>
    if isSlash backslash c then appendSegments backslash (s.length + 1) ['/'] rest
    else appendSegments backslash (s.length + 1) ['/'] s

/-- The URL after its scheme and two slashes. -/
def withAuthority (scheme : String) (kind : SchemeKind) (s : List Char) : Except UrlError Url := do
  let backslash : Bool := kind ≠ .ordinary
  let (authority, rest) := s.span (!endsAuthority backslash ·)
  let (credentials, address) ← match splitLastAt authority with
    | none => pure (("", none), authority)
    | some ([], address) =>
      if address.isEmpty && !rest.isEmpty then .error .emptyHost
      else pure (("", none), address)
    | some (info, address) => pure (userinfo info, address)
  let (hostText, afterHost) := splitHost false address
  if kind = .special && hostText.isEmpty then .error .emptyHost
  let host ← if kind = .special then Host.domain hostText else Host.opaqueHost hostText
  if host = "" && !afterHost.isEmpty then .error .emptyHost
  let (number, afterPort) ← readPort (defaultPort? scheme) afterHost
  if host = "" && credentials ≠ ("", none) then .error .emptyHost
  pure
    { scheme := scheme
      username := credentials.1
      password := credentials.2
      host := if host = "" then none else some host
      port := number
      path := String.ofList (resolvePath kind (afterPort ++ rest)) }

/-- A URL of files: its host may be missing, and a drive letter is no host. -/
def fileUrl (scheme : String) (s : List Char) : Except UrlError Url := do
  let plain (host : Option String) (rest : List Char) : Url :=
    { scheme := scheme, username := "", password := none, host := host, port := none,
      path := String.ofList (resolvePath .file rest) }
  match s with
  | a :: b :: rest =>
    if isSlash true a && isSlash true b then
      let (hostText, after) := rest.span (!endsAuthority true ·)
      if hostText.isEmpty || startsWithDriveLetter hostText then pure (plain none rest)
      else
        let host ← Host.domain hostText
        pure (plain (if host = "localhost" then none else some host) after)
    else pure (plain none s)
  | s => pure (plain none s)

/-- Parses an absolute URL. -/
def parse (text : String) : Except UrlError Url :=
  match splitScheme? (significant text) with
  | none => .error .noScheme
  | some (scheme, rest) =>
    match schemeKind scheme with
    | .file => fileUrl scheme rest
    | .special => withAuthority scheme .special (rest.dropWhile (isSlash true))
    | .ordinary =>
      match rest with
      | '/' :: '/' :: rest => withAuthority scheme .ordinary rest
      | rest =>
        .ok
          { scheme := scheme, username := "", password := none, host := none, port := none,
            path := String.ofList (rest.takeWhile fun c => c ≠ '?' && c ≠ '#') }

end Url

end PubSub
