import PubSub.Duration
import PubSub.Text.Inspected

/-! # Endpoints

A server that a client can connect to, with the credentials and the files that
a connection needs. The address and the inspected form show no password.
-/

namespace PubSub

structure Endpoint where
  host : String
  port : Nat
  tls : Bool
  user : Option String
  password : Option String
  trustCertificate : Option String
  clientCertificate : Option String
  clientKey : Option String
  verifyName : Bool
  deriving DecidableEq, Repr, Inhabited

namespace Endpoint

def scheme (tls : Bool) : String := if tls then "amqps" else "amqp"

def defaultPort (tls : Bool) : Nat := if tls then 5671 else 5672

def address (e : Endpoint) : String := s!"{scheme e.tls}://{e.host}:{e.port}"

def inspect (e : Endpoint) : Inspected :=
  .record "Endpoint" [
    ("host", .text e.host),
    ("port", .nat e.port),
    ("tls", .bool e.tls),
    ("user", .option .text e.user),
    ("password", .option (fun _ => .text "<hidden>") e.password),
    ("trust_certificate", .option .text e.trustCertificate),
    ("client_certificate", .option .text e.clientCertificate),
    ("client_key", .option .text e.clientKey),
    ("verify_name", .bool e.verifyName)]

end Endpoint

/-- The answer to the question which server to try next. -/
inductive EndpointAnswer where
  | found (endpoint : Endpoint)
  /-- Every candidate has been tried; ask again after this wait. -/
  | retryAfter (delay : Duration)
  deriving DecidableEq, Repr, Inhabited

end PubSub
