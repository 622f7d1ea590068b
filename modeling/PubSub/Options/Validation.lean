import PubSub.ClientId
import PubSub.Endpoint.Service
import PubSub.Report

/-! # Validating client options

All options are checked in one pass. A bad client id is an error of its own;
everything else that fails is listed in one report.
-/

namespace PubSub

/-- The files that exist. -/
abbrev FileCheck := String → Bool

namespace RetryOptions

/-- A multiplier that is no number is below no bound and above none. -/
def multiplierInRange (o : RetryOptions) : Bool :=
  !o.multiplier.lt (.ofNat 1) && !(Double.ofNat 10).lt o.multiplier

def findings (o : RetryOptions) : List Finding :=
  Report.orElse
    (Report.require (1 ≤ o.initialDelayMs) "initial_delay_ms"
        "Initial retry delay must be at least 1ms" ++
      Report.require (1 ≤ o.maxDelayMs) "max_delay_ms"
        "Maximum retry delay must be at least 1ms" ++
      Report.require o.multiplierInRange "multiplier"
        "Multiplier must be between 1.0 and 10.0")
    (Report.require (o.initialDelayMs ≤ o.maxDelayMs) Finding.whole
      "Maximum retry delay must not be below the initial delay")

end RetryOptions

namespace TlsOptions

/-- A path that is given is not empty and names a file. -/
def fileGiven (isFile : FileCheck) (path : Option String) : Bool :=
  path.all fun p => p ≠ "" && isFile p

def findings (isFile : FileCheck) (o : TlsOptions) : List Finding :=
  Report.orElse
    (Report.require (fileGiven isFile o.trustCertificate) "trust_certificate"
        "Trust certificate file does not exist" ++
      Report.require (fileGiven isFile o.clientCertificate) "client_certificate"
        "Client certificate file does not exist" ++
      Report.require (fileGiven isFile o.clientKey) "client_key"
        "Client key file does not exist")
    (Report.require (o.clientCertificate.isSome = o.clientKey.isSome) Finding.whole
      "Both client certificate and key must be provided or neither")

end TlsOptions

namespace ClientOptions

/-- The first service URL with a fault. -/
def serviceFinding (services : List String) : List Finding :=
  (services.findSome? fun service =>
    match Url.parseService service with
    | .error cause => some ⟨"service", cause.message service⟩
    | .ok _ => none).toList

def hasUserInService (services : List String) : Bool :=
  services.any fun service =>
    match Url.parse service with
    | .ok url => url.username ≠ ""
    | .error _ => false

/-- User name and password come together, and from one place. -/
def credentialFindings (o : ClientOptions) : List Finding :=
  Report.require (o.user.isSome = o.password.isSome) Finding.whole
      "Both user and password must be provided or neither" ++
    Report.require (!(o.user.isSome && o.password.isSome && hasUserInService o.service))
      Finding.whole "Credentials given both as options and inside a service URL"

def findings (isFile : FileCheck) (o : ClientOptions) : List Finding :=
  Report.orElse
    (Report.require (!o.service.isEmpty) "service" "At least one service URL is required" ++
      serviceFinding o.service ++
      (o.tls.toList.flatMap (TlsOptions.findings isFile)).map (Finding.within "tls") ++
      o.retry.findings.map (Finding.within "retry") ++
      Report.require (1 ≤ o.sendBackpressureThreshold) "send_backpressure_threshold"
        "Backpressure threshold must be at least 1")
    o.credentialFindings

/-- Checks the options. A missing id is given by `generated`. -/
def validated (isFile : FileCheck) (generated : String) (o : ClientOptions) :
    Except ClientError ClientOptions := do
  o.id.forM ClientId.check
  let findings := o.findings isFile
  if findings.isEmpty then pure { o with id := some (o.id.getD generated) }
  else .error (.config (Report.text findings))

end ClientOptions

end PubSub
