import PubSub.Logging

/-! # Logging settings as documents

The documents that stand for logging settings, in JSON and in configuration
files.
-/

namespace PubSub

open Json in
def LogFormat.decode : Decoder LogFormat := fun j => do LogFormat.ofName? (← asText j)

open Json in
def ConsoleSettings.decode : Decoder ConsoleSettings := fun j => do
  let given ← fields
    ["enabled", "format", "show_target", "show_thread_ids", "show_spans", "ansi_colors"] j
  pure
    { enabled := ← readField given "enabled" true asBool
      format := ← readField given "format" .compact LogFormat.decode
      showTarget := ← readField given "show_target" true asBool
      showThreadIds := ← readField given "show_thread_ids" false asBool
      showSpans := ← readField given "show_spans" false asBool
      ansiColors := ← readField given "ansi_colors" true asBool }

open Json in
def JournalSettings.decode : Decoder JournalSettings := fun j => do
  let given ← fields ["enabled", "identifier"] j
  let default : JournalSettings := {}
  pure
    { enabled := ← readField given "enabled" false asBool
      identifier := ← readField given "identifier" default.identifier asText }

open Json in
def LoggingSettings.decode : Decoder LoggingSettings := fun j => do
  let given ← fields ["level", "client_level", "console", "journald"] j
  let default : LoggingSettings := {}
  pure
    { level := ← readField given "level" default.level asText
      clientLevel := ← readField given "client_level" none (optional asText)
      console := ← readField given "console" default.console (optional ConsoleSettings.decode)
      journal := ← readField given "journald" default.journal (optional JournalSettings.decode) }

end PubSub
