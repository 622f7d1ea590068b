/-! # URLs

A parsed URL: its scheme, credentials, host, port and path. The query and the
fragment play no part here.
-/

namespace PubSub

structure Url where
  /-- In lower case. -/
  scheme : String
  /-- Percent-encoded; empty if there is none. -/
  username : String
  /-- Percent-encoded; none if it is empty. -/
  password : Option String
  /-- None if it is empty or the URL has no authority. -/
  host : Option String
  port : Option Nat
  path : String
  deriving DecidableEq, Repr, Inhabited

inductive UrlError where
  | emptyHost
  | invalidDomainName
  | invalidPort
  | invalidIpv4
  | invalidIpv6
  | invalidHostCharacter
  | noScheme
  deriving DecidableEq, Repr, Inhabited

def UrlError.message : UrlError → String
  | emptyHost => "empty host"
  | invalidDomainName => "invalid international domain name"
  | invalidPort => "invalid port number"
  | invalidIpv4 => "invalid IPv4 address"
  | invalidIpv6 => "invalid IPv6 address"
  | invalidHostCharacter => "invalid domain character"
  | noScheme => "relative URL without a base"

end PubSub
