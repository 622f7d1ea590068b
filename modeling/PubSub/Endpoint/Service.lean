import PubSub.Endpoint
import PubSub.Error
import PubSub.Options
import PubSub.Url.Parser

/-! # Service URLs

A service URL names a server with or without encryption, and nothing but a
server: it has a host and no path. Credentials in the URL come before those of
the options.
-/

namespace PubSub

inductive ServiceUrlError where
  | invalid (cause : UrlError)
  | unsupportedScheme (scheme : String)
  | noHost
  | hasPath
  deriving DecidableEq, Repr

namespace ServiceUrlError

/-- The message about the given service URL. -/
def message (service : String) : ServiceUrlError → String
  | invalid cause => s!"invalid service URL '{service}': {cause.message}"
  | unsupportedScheme scheme =>
    s!"unsupported scheme '{scheme}' in '{service}', expected amqp or amqps"
  | noHost => s!"service URL '{service}' has no host"
  | hasPath => s!"service URL '{service}' must not have a path"

end ServiceUrlError

namespace Url

def isSupported (url : Url) : Bool := url.scheme = "amqp" || url.scheme = "amqps"

/-- Parses a service URL; the first of its faults in this order is reported. -/
def parseService (service : String) : Except ServiceUrlError Url :=
  match Url.parse service with
  | .error cause => .error (.invalid cause)
  | .ok url =>
    if !url.isSupported then .error (.unsupportedScheme url.scheme)
    else if url.host.isNone then .error .noHost
    else if url.path ≠ "" && url.path ≠ "/" then .error .hasPath
    else .ok url

end Url

namespace Endpoint

/-- User name and password: those of the URL if it has a user name, else those of the options. -/
def credentials (url : Url) (options : ClientOptions) : Option String × Option String :=
  if url.username = "" then (options.user, options.password)
  else (some url.username, url.password)

def ofUrl (url : Url) (options : ClientOptions) : Endpoint :=
  let tls : Bool := url.scheme = "amqps"
  let (user, password) := credentials url options
  let files := options.tls.getD {}
  { host := url.host.getD ""
    port := url.port.getD (defaultPort tls)
    tls := tls
    user := user
    password := password
    trustCertificate := files.trustCertificate
    clientCertificate := files.clientCertificate
    clientKey := files.clientKey
    verifyName := files.verifyName }

def ofService (service : String) (options : ClientOptions) : Except ClientError Endpoint :=
  match Url.parseService service with
  | .error cause => .error (.config (cause.message service))
  | .ok url => .ok (ofUrl url options)

end Endpoint

end PubSub
