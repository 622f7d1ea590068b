import PubSub.Logging

/-! # Selecting log lines

Directives select the events that are written. In what language they are
written is not for this program to say: it hands them to a reader, and asks the
filter that it gets. All that is known of a filter is what it may look at, and
that levels are limits.
-/

namespace PubSub

inductive LogLevel where
  | error
  | warn
  | info
  | debug
  | trace
  deriving DecidableEq, Repr, Inhabited

namespace LogLevel

def name : LogLevel → String
  | error => "ERROR"
  | warn => "WARN"
  | info => "INFO"
  | debug => "DEBUG"
  | trace => "TRACE"

/-- How much is written up to this level. -/
def verbosity : LogLevel → Nat
  | error => 1
  | warn => 2
  | info => 3
  | debug => 4
  | trace => 5

def all : List LogLevel := [error, warn, info, debug, trace]

end LogLevel

/-- A filter knows an event outside all spans by its target, the names of its fields and its level.
It sees no message. -/
structure LogFilter where
  enables : (target : String) → (fields : List String) → LogLevel → Bool
  /-- A level is the greatest verbosity that is let through. -/
  mono : ∀ {target fields level level'}, LogLevel.verbosity level ≤ LogLevel.verbosity level' →
    enables target fields level' → enables target fields level

/-- How directives are read. -/
structure DirectiveReader where
  /-- The filter that all of the directives make; none if one of them is refused. -/
  readAll? : String → Option LogFilter
  /-- The filter that those directives make that are not refused. -/
  readSome : String → LogFilter

/-- The directives of the environment count, if there are any and they can be read, and else those
of the settings. -/
def DirectiveReader.select (r : DirectiveReader) (environment : Option String)
    (s : LoggingSettings) : LogFilter :=
  (environment.bind r.readAll?).getD (r.readSome s.directives)

end PubSub
