import PubSub.Duration

/-! # Client options

What an application can set about a client: its id, the services to connect to,
credentials, the files for encrypted connections, the retry schedule, and how
many sends may be open before there is backpressure.
-/

namespace PubSub

structure RetryOptions where
  initialDelayMs : Nat := 1000
  maxDelayMs : Nat := 60000
  multiplier : Double := .ofNat 2
  /-- How many rounds are tried; without a limit if absent. -/
  maxAttempts : Option Nat := none
  deriving DecidableEq, Repr, Inhabited

structure TlsOptions where
  trustCertificate : Option String := none
  clientCertificate : Option String := none
  clientKey : Option String := none
  verifyName : Bool := true
  deriving DecidableEq, Repr, Inhabited

namespace TlsOptions

def trusting (path : String) : TlsOptions := { trustCertificate := some path }

/-- The files that are named. -/
def files (o : TlsOptions) : List String :=
  o.trustCertificate.toList ++ o.clientCertificate.toList ++ o.clientKey.toList

def hasClientAuth (o : TlsOptions) : Bool := o.clientCertificate.isSome && o.clientKey.isSome

end TlsOptions

structure ClientOptions where
  id : Option String := none
  /-- The services, tried in order. -/
  service : List String := ["amqp://localhost"]
  user : Option String := none
  password : Option String := none
  tls : Option TlsOptions := none
  retry : RetryOptions := {}
  sendBackpressureThreshold : Nat := 2
  deriving DecidableEq, Repr, Inhabited

namespace ClientOptions

def ofService (url : String) : ClientOptions := { service := [url] }

def withId (id : String) (o : ClientOptions) : ClientOptions := { o with id := some id }

def withCredentials (user password : String) (o : ClientOptions) : ClientOptions :=
  { o with user := some user, password := some password }

def withTls (tls : TlsOptions) (o : ClientOptions) : ClientOptions := { o with tls := some tls }

def withRetry (retry : RetryOptions) (o : ClientOptions) : ClientOptions :=
  { o with retry := retry }

end ClientOptions

end PubSub
