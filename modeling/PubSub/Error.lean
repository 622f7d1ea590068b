/-! # Errors of a client

One error type serves every operation, promise and notification. Its kind
decides what the connection does next: network failures are retried, security
and replacement failures end the session.
-/

namespace PubSub

inductive ErrorKind where
  | state
  | argument
  | network
  | security
  | replaced
  | callback
  deriving DecidableEq, Repr, Inhabited

def ErrorKind.name : ErrorKind → String
  | state => "State"
  | argument => "Argument"
  | network => "Network"
  | security => "Security"
  | replaced => "Replaced"
  | callback => "Callback"

inductive ClientError where
  | stopped (text : String)
  | alreadySubscribed (address : String)
  | notSubscribed (address : String)
  | state (text : String)
  | alreadyCompleted
  | cancelled
  | argument (text : String)
  | config (text : String)
  | network (text : String)
  | security (text : String)
  | replaced (text : String)
  | callback (text : String)
  | retryLimit (attempts : Nat)
  deriving DecidableEq, Repr, Inhabited

/-- The message of a retry schedule whose rounds are used up. -/
def attemptLimitMessage (attempts : Nat) : String :=
  s!"Maximum number of attempts exceeded: {attempts}"

namespace ClientError

def name : ClientError → String
  | stopped _ => "Stopped"
  | alreadySubscribed _ => "AlreadySubscribed"
  | notSubscribed _ => "NotSubscribed"
  | state _ => "State"
  | alreadyCompleted => "AlreadyCompleted"
  | cancelled => "Cancelled"
  | argument _ => "Argument"
  | config _ => "Config"
  | network _ => "Network"
  | security _ => "Security"
  | replaced _ => "Replaced"
  | callback _ => "Callback"
  | retryLimit _ => "RetryLimit"

def message : ClientError → String
  | stopped text => s!"Client is stopped: {text}"
  | alreadySubscribed address => s!"Already subscribed to {address}"
  | notSubscribed address => s!"Not subscribed to {address}"
  | state text => s!"Invalid state: {text}"
  | alreadyCompleted => "Promise already completed"
  | cancelled => "Timer cancelled"
  | argument text => s!"Invalid argument: {text}"
  | config text => s!"Configuration error: {text}"
  | network text => s!"Network error: {text}"
  | security text => s!"Security error: {text}"
  | replaced text => s!"Replaced by another client instance: {text}"
  | callback text => s!"Callback error: {text}"
  | retryLimit attempts => s!"Retry policy error: {attemptLimitMessage attempts}"

def kind : ClientError → ErrorKind
  | stopped _ | alreadySubscribed _ | notSubscribed _ | state _ | alreadyCompleted
  | cancelled => .state
  | argument _ | config _ => .argument
  | network _ | retryLimit _ => .network
  | security _ => .security
  | replaced _ => .replaced
  | callback _ => .callback

/-- Worth another connection attempt. -/
def isRetryable : ClientError → Bool
  | network _ => true
  | _ => false

/-- Ends the session whatever the client is doing. -/
def isFatal (e : ClientError) : Bool := e.kind = .security || e.kind = .replaced

/-- The error of every request that a stopping or stopped client turns down. -/
def clientStopped : ClientError := .stopped "the client is stopped"

end ClientError

/-- What an operation without a value reports. -/
abbrev Outcome := Except ClientError Unit

instance decidableEqExcept {ε α : Type} [DecidableEq ε] [DecidableEq α] :
    DecidableEq (Except ε α)
  | .ok a, .ok b => decidable_of_iff (a = b) (by simp)
  | .error a, .error b => decidable_of_iff (a = b) (by simp)
  | .ok _, .error _ => isFalse (by simp)
  | .error _, .ok _ => isFalse (by simp)

end PubSub
