import PubSub.Startup

/-! # The program

Looks around, runs the startup on what it finds, and writes the transcript.
-/

namespace PubSub

namespace Program

/-- What there is at a path. -/
def look (path : String) : IO ConfigFile := do
  try
    let content ← IO.FS.readBinFile path
    pure (.file content.toList)
  catch
    | .noFileOrDirectory .. => pure .missing
    | .inappropriateType .. => pure .directory
    | .permissionDenied .. => pure (.unreadable "Permission denied (os error 13)")
    | fault => pure (.unreadable (toString fault))

/-- The files that a configuration names and that exist. -/
def existing (file : ConfigFile) : IO (List String) := do
  match file with
  | .file content =>
    let files := ((Utf8.decode content).toOption.bind Config.parse?).toList.flatMap Config.files
    files.filterM fun path => do
      let found ← look path
      pure (found ≠ .missing && found ≠ .directory)
  | _ => pure []

/-- The journal is out of reach of this program. -/
def environment : IO Environment := do
  let named ← IO.getEnv Startup.pathVariable
  let file ← look (named.getD Startup.defaultPath)
  let files ← existing file
  let n ← IO.rand 0 (Nat.pow 16 7 - 1)
  pure
    { configPath := named
      hasDefault := file ≠ .missing
      configFile := file
      isFile := files.contains
      logDirectives := ← IO.getEnv "RUST_LOG"
      journalFault := some "No such file or directory (os error 2)"
      generatedId := ClientId.generate n
      programFile := "PubSub/Main.lean" }

end Program

end PubSub

open PubSub in
def main : IO UInt32 := do
  let t := Startup.run (← Program.environment)
  for line in t.out do
    IO.println line
  for line in t.err do
    IO.eprintln line
  pure (UInt32.ofNat t.code)
