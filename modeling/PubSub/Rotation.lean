import PubSub.Backoff
import PubSub.Endpoint.Service

/-! # Endpoint rotation

A fixed list of endpoints is handed out in turn. When every endpoint of a round
has been tried there is a wait, after which a new round begins. The endpoint of
a connection that succeeded begins the next round.
-/

namespace PubSub

namespace Backoff

def ofOptions (o : RetryOptions) : Backoff :=
  let b := new (.ofMillis o.initialDelayMs) (.ofMillis o.maxDelayMs) o.multiplier
  { b with maxAttempts := o.maxAttempts }

end Backoff

structure Rotation where
  endpoints : List Endpoint
  /-- Where the round started. -/
  start : Nat
  /-- How many endpoints of the round have been handed out. -/
  tried : Nat
  backoff : Backoff
  deriving DecidableEq, Repr

namespace Rotation

/-- What a lookup gives. -/
inductive Answer where
  | found (endpoint : Endpoint)
  | wait (delay : Duration)
  | exhausted (attempts : Nat)
  /-- The next wait is no duration, or there are too many rounds to count. -/
  | overflow
  deriving DecidableEq, Repr

def ofOptions (o : ClientOptions) : Except ClientError Rotation := do
  let endpoints ← o.service.mapM (Endpoint.ofService · o)
  if endpoints.isEmpty then .error (.config "no service URLs configured")
  else pure { endpoints := endpoints, start := 0, tried := 0, backoff := .ofOptions o.retry }

variable [OverflowChecks]

/-- The end of a round. -/
def pause (r : Rotation) : Answer × Rotation :=
  let (answer, backoff) := r.backoff.next
  let r := { r with tried := 0, backoff := backoff }
  match answer with
  | .wait delay => (.wait delay, r)
  | .exhausted attempts => (.exhausted attempts, r)
  | .overflow => (.overflow, r)

def next (r : Rotation) : Answer × Rotation :=
  if r.tried < r.endpoints.length then
    match r.endpoints[(r.start + r.tried) % r.endpoints.length]? with
    | some endpoint => (.found endpoint, { r with tried := r.tried + 1 })
    | none => r.pause
  else r.pause

/-- A connection to the endpoint succeeded. -/
def succeed (r : Rotation) (endpoint : Endpoint) : Rotation :=
  { r with
    start := (r.endpoints.findIdx? (· = endpoint)).getD r.start
    tried := 0
    backoff := r.backoff.reset }

end Rotation

end PubSub
