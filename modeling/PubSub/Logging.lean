import PubSub.Json.Decode
import PubSub.Report
import PubSub.Text.Lowercase

/-! # Logging settings

How log lines are selected and where they go: a level, a level of its own for
the client, the console and the journal.
-/

namespace PubSub

inductive LogFormat where
  | compact
  | pretty
  | json
  deriving DecidableEq, Repr, Inhabited

namespace LogFormat

def name : LogFormat → String
  | compact => "compact"
  | pretty => "pretty"
  | json => "json"

def ofName? (s : String) : Option LogFormat := [compact, pretty, json].find? (·.name = s)

end LogFormat

structure ConsoleSettings where
  enabled : Bool := true
  format : LogFormat := .compact
  /-- Lines name the module that they come from. -/
  showTarget : Bool := true
  showThreadIds : Bool := false
  /-- The end of a span makes a line. -/
  showSpans : Bool := false
  ansiColors : Bool := true
  deriving DecidableEq, Repr, Inhabited

structure JournalSettings where
  enabled : Bool := false
  identifier : String := "skylark"
  deriving DecidableEq, Repr, Inhabited

structure LoggingSettings where
  level : String := "info"
  /-- The level of the client core alone. -/
  clientLevel : Option String := none
  console : Option ConsoleSettings := some {}
  journal : Option JournalSettings := some {}
  deriving DecidableEq, Repr, Inhabited

namespace LoggingSettings

/-- The module of the client core in log lines. -/
def clientTarget : String := "skylark_client"

def levelNames : List String := ["trace", "debug", "info", "warn", "error"]

/-- Levels are named in any case. -/
def isLevel (level : String) : Bool := levelNames.contains (lowercase level)

/-- The selection of lines that the levels stand for. -/
def directives (s : LoggingSettings) : String :=
  match s.clientLevel with
  | none => lowercase s.level
  | some level => s!"{lowercase s.level},{clientTarget}={lowercase level}"

def consoleEnabled (s : LoggingSettings) : Bool := s.console.any (·.enabled)

def journalEnabled (s : LoggingSettings) : Bool := s.journal.any (·.enabled)

def hasOutput (s : LoggingSettings) : Bool := s.consoleEnabled || s.journalEnabled

def levelFinding (path level : String) : List Finding :=
  Report.require (isLevel level) path s!"Invalid log level: {level}"

/-- The journal needs an identifier even where it is not enabled. -/
def journalFinding (j : JournalSettings) : List Finding :=
  Report.require (j.identifier ≠ "") "journald.identifier"
    "Validation error: length [\x7b\"min\": Number(1), \"value\": String(\"\")\x7d]"

def findings (s : LoggingSettings) : List Finding :=
  levelFinding "level" s.level ++
    s.clientLevel.toList.flatMap (levelFinding "client_level") ++
    s.journal.toList.flatMap journalFinding

end LoggingSettings

/-- Why logging cannot be set up. -/
inductive LoggingError where
  | invalid (findings : List Finding)
  | noLayers
  /-- The journal failed, and half of the outputs is not enough. -/
  | journalFailed
  deriving DecidableEq, Repr

def LoggingError.message : LoggingError → String
  | invalid findings => s!"Logger configuration validation error: {Report.text findings}"
  | noLayers => "No logging layers were configured or successfully initialized"
  | journalFailed => "Failed to initialize journald logger while console logging is enabled"

end PubSub
