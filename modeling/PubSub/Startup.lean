import PubSub.Config
import PubSub.Logging.Directive
import PubSub.Logging.Line
import PubSub.Options.Inspect
import PubSub.Rotation

/-! # Startup

The program loads its configuration, sets up logging, and reports the client
that is configured: its id, its endpoints in the order of connection, and its
retry schedule. What it writes depends on its environment alone.
-/

namespace PubSub

/-- What the program finds around it. -/
structure Environment where
  /-- The path of the configuration file, if one is named. -/
  configPath : Option String
  /-- There is something at the default path. -/
  hasDefault : Bool
  /-- What there is at the path that is named, or else at the default path. -/
  configFile : ConfigFile
  isFile : FileCheck
  /-- The directives for log lines, if there are any. -/
  logDirectives : Option String
  directiveReader : DirectiveReader := .standard
  /-- Why the journal cannot be written to. -/
  journalFault : Option String
  /-- The id that a client without one is given. -/
  generatedId : String
  /-- The file that the program was written in. -/
  programFile : String

/-- What the program writes, and its exit code. -/
structure Transcript where
  code : Nat
  out : List String
  err : List String
  deriving DecidableEq, Repr

namespace Startup

def infoLine (message : String) : String := s!"INFO {message}"

def warningLine (message : String) : String := s!"WARN {message}"

def errorLine (message : String) : String := s!"ERROR {message}"

/-- The output so far, and then the end with an error. -/
def fail (out : List String) (message : String) : Transcript :=
  ⟨1, out, [errorLine message]⟩

inductive Journal where
  | off
  | ready (identifier : String)
  | failed (fault : String)
  deriving DecidableEq, Repr

def journal (fault : Option String) (s : LoggingSettings) : Journal :=
  match s.journal.filter (·.enabled) with
  | none => .off
  | some settings =>
    match fault with
    | none => .ready settings.identifier
    | some fault => .failed fault

def noLayersLine : String :=
  warningLine "No logging layers were initialized. Please check your configuration."

/-- The lines that opening the outputs makes, and the fault if it fails. -/
def openOutputs (console : Bool) : Journal → List String × Option LoggingError
  | .off => if console then ([], none) else ([noLayersLine], some .noLayers)
  | .ready identifier =>
    ([infoLine s!"Systemd journald logger initialized with identifier: {identifier}"], none)
  | .failed fault =>
    let warning := warningLine s!"Failed to initialize systemd journald logger: {fault}"
    if console then ([warning], some .journalFailed)
    else ([warning, noLayersLine], some .noLayers)

def authentication (e : Endpoint) : String :=
  match e.user, e.tls with
  | some user, true => s!"user {user}, tls"
  | some user, false => s!"user {user}"
  | none, true => "anonymous, tls"
  | none, false => "anonymous"

def retryText (o : RetryOptions) : String :=
  let rounds := match o.maxAttempts with
    | none => "no round limit"
    | some n => s!"at most {n} rounds"
  s!"Retry: {o.initialDelayMs}ms initial, {o.maxDelayMs}ms max, " ++
    s!"x{o.multiplier.text} per round, {rounds}"

def info (line : Nat) (message : String) : LogEvent :=
  ⟨.info, message, line⟩

def endpointEvents (first : Nat) : List Endpoint → List LogEvent
  | [] => []
  | e :: rest =>
    info 48 s!"Endpoint {first}: {e.address} ({authentication e})" :: endpointEvents (first + 1) rest

/-- What is logged about a configuration. -/
def events (c : Config) (endpoints : List Endpoint) : List LogEvent :=
  [info 31 "skylark version 0.1.0",
    info 32 s!"Log level: {c.logging.directives}",
    ⟨.debug, c.client.inspect.block 0, 33⟩,
    info 40 ("Client id: " ++ c.client.id.getD "")] ++
  endpointEvents 1 endpoints ++
  [info 52 (retryText c.client.retry),
    info 62 s!"Send backpressure threshold: {c.client.sendBackpressureThreshold}",
    info 66 "Configuration OK"]

/-- Events of the program that have the level are selected. -/
def selects (env : Environment) (s : LoggingSettings) (level : LogLevel) : Bool :=
  (env.directiveReader.select env.logDirectives s).enables LogEvent.target LogEvent.fields level

/-- The log lines that are written to the console. -/
def logLines (env : Environment) (s : LoggingSettings) (events : List LogEvent) : List String :=
  match s.console.filter (·.enabled) with
  | none => []
  | some console =>
    (events.filter (selects env s ·.level)).flatMap (·.lines env.programFile console)

/-- Reports a configuration that was loaded. -/
def describe (env : Environment) (out : List String) (c : Config) : Transcript :=
  match openOutputs c.logging.consoleEnabled (journal env.journalFault c.logging) with
  | (lines, some fault) =>
    fail (out ++ lines) s!"Failed to init Log Manager: {fault.message}"
  | (lines, none) =>
    match Rotation.ofOptions c.client with
    | .ok rotation =>
      ⟨0, out ++ lines ++ logLines env c.logging (events c rotation.endpoints), []⟩
    | .error cause =>
      let fault : LogEvent :=
        ⟨.error, s!"Invalid client configuration: {cause.message}", 36⟩
      ⟨1, out ++ lines ++ logLines env c.logging ((events c []).take 3 ++ [fault]), []⟩

/-- The variable that names the configuration file. -/
def pathVariable : String := "SKYLARK_CONFIG"

def defaultPath : String := "/etc/skylark/config.toml"

/-- The path of the configuration file, and where it is known from. -/
def choosePath (env : Environment) : Option (String × String) :=
  match env.configPath with
  | some path => some (path, s!"config from {pathVariable}")
  | none => if env.hasDefault then some (defaultPath, "default config path") else none

def run (env : Environment) : Transcript :=
  match choosePath env with
  | none => fail [] ConfigError.notConfigured.message
  | some (path, source) =>
    let out := [infoLine s!"Using {source}: {path}",
      infoLine s!"Loading configuration from: {path}"]
    match Config.load env.isFile env.generatedId path env.configFile with
    | .error cause => fail out cause.message
    | .ok c => describe env (out ++ [infoLine s!"Successfully loaded config from: {path}"]) c

end Startup

end PubSub
