import PubSub.Logging.Filter
import PubSub.Text.Split

/-! # Log lines

The lines that an event makes on the console, without colours and time.
-/

namespace PubSub

structure LogEvent where
  level : LogLevel
  message : String
  /-- The line of the program that logs it. -/
  line : Nat
  deriving DecidableEq, Repr

namespace LogEvent

/-- The module that all events of the program come from. -/
def target : String := "skylark"

/-- All events of the program have a message, and no other field. -/
def fields : List String := ["message"]

def compactText (s : ConsoleSettings) (e : LogEvent) : String :=
  let thread := if s.showThreadIds then "ThreadId(01) " else ""
  let origin := if s.showTarget then s!"{target}: " else ""
  s!"{e.level.name} {thread}{origin}{e.message}"

/-- The message, where in the file of the program it comes from, and an empty line. -/
def prettyText (file : String) (s : ConsoleSettings) (e : LogEvent) : String :=
  let thread := if s.showThreadIds then " on ThreadId(1)" else ""
  let origin := if s.showTarget then s!"{target}:" else ""
  s!"{e.level.name} {origin} {e.message}\n    at {file}:{e.line}{thread}\n"

def document (s : ConsoleSettings) (e : LogEvent) : Json :=
  .ofMembers
    ([("fields", .object [("message", .text e.message)]), ("level", .text e.level.name)] ++
      (if s.showTarget then [("target", .text target)] else []) ++
      (if s.showThreadIds then [("threadId", .text "ThreadId(1)")] else []))

def lines (file : String) (s : ConsoleSettings) (e : LogEvent) : List String :=
  match s.format with
  | .compact => split '\n' (e.compactText s)
  | .pretty => split '\n' (e.prettyText file s)
  | .json => [(e.document s).write]

end LogEvent

end PubSub
