import PubSub.Logging.Decode
import PubSub.Options.Decode
import PubSub.Options.Validation
import PubSub.Toml.Reader

/-! # Configuration files

A configuration file holds the logging settings and the client options. It is
read once; what is wrong with it ends the program.
-/

namespace PubSub

structure Config where
  logging : LoggingSettings
  client : ClientOptions
  deriving DecidableEq, Repr, Inhabited

/-- What there is at the path of a configuration file. -/
inductive ConfigFile where
  | missing
  | directory
  /-- A file that cannot be read, and why. -/
  | unreadable (fault : String)
  | file (content : Bytes)
  deriving DecidableEq, Repr

inductive ConfigError where
  | missing (path : String)
  | notConfigured
  | isDirectory
  | unreadable (fault : String)
  | notText
  | notParsed
  | invalidLogging (findings : List Finding)
  | invalidClient (cause : ClientError)
  deriving DecidableEq, Repr

/-- The message; the fault that parsing finds is left out. -/
def ConfigError.message : ConfigError → String
  | missing path => s!"Configuration error: {path}"
  | notConfigured => "Configuration error: No configuration file found."
  | isDirectory => "IO error while reading configuration: Is a directory (os error 21)"
  | unreadable fault => s!"IO error while reading configuration: {fault}"
  | notText => "IO error while reading configuration: stream did not contain valid UTF-8"
  | notParsed => "Parse error while reading configuration:"
  | invalidLogging findings => s!"Validation error: {Report.text findings}"
  | invalidClient cause => s!"Validation error: {cause.message}"

namespace Config

open Json in
def decode : Decoder Config := fun j => do
  let given ← fields ["logger", "client"] j
  pure
    { logging := ← readField given "logger" {} LoggingSettings.decode
      client := ← readField given "client" {} ClientOptions.decode }

/-- Logging settings come first; where they fail, client options are not checked. -/
def validated (isFile : FileCheck) (generated : String) (c : Config) :
    Except ConfigError Config :=
  let findings := c.logging.findings.map (Finding.within "logger")
  if findings.isEmpty then
    match c.client.validated isFile generated with
    | .ok client => .ok { c with client := client }
    | .error cause => .error (.invalidClient cause)
  else .error (.invalidLogging findings)

/-- The files that the options of the client name. -/
def files (c : Config) : List String := c.client.tls.toList.flatMap (·.files)

def parse? (text : String) : Option Config := (Toml.read? text).bind decode

/-- Reads and checks what there is at a path. -/
def load (isFile : FileCheck) (generated path : String) :
    ConfigFile → Except ConfigError Config
  | .missing => .error (.missing path)
  | .directory => .error .isDirectory
  | .unreadable fault => .error (.unreadable fault)
  | .file content =>
    match Utf8.decode content with
    | .error _ => .error .notText
    | .ok text =>
      match parse? text with
      | none => .error .notParsed
      | some c => c.validated isFile generated

end Config

end PubSub
