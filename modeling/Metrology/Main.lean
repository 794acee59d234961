import Metrology.CommandLine.Run
import Std.Time.Format

/-!
# The program

Takes a snapshot of the files that the command line names, runs the command on it, and writes what
the command leaves behind.
-/

namespace Metrology.Main

/-- What stands under a path. -/
def entryAt (path : RawText) : IO CommandLine.Entry := do
  try
    let place ← IO.FS.realPath (Text.escaped path)
    if ← place.isDir then return .directory
    return .file (← IO.FS.readBinFile place)
  catch _ => return .missing

/-- The entries of some paths; all others are missing. -/
def snapshot (paths : List RawText) : IO CommandLine.Host := do
  let entries ← paths.mapM fun path ↦ do return (path, ← entryAt path)
  return {
    disk := fun path ↦ (entries.lookup path).getD .missing
    wording := fun _ ↦ "not a document" }

/-- The path that the settings of a call log to. -/
def settingsLog (host : CommandLine.Host) (words : List RawText) : List RawText :=
  match CommandLine.Invocation.read host words with
  | .run invocation =>
    match invocation.settings host with
    | .ok { logFile := .text path, .. } =>
      (LogPath.check path).toOption.toList.flatMap fun name ↦
        (name :: LogPath.directories name).map .ofString
    | _ => []
  | _ => []

def twoDigits (n : Int) : String := Double.padLeft 2 '0' (toString n)

/-- The present moment, and the number of this process. -/
def currentMoment : IO LogTree.Moment := do
  let now := (← Std.Time.Timestamp.now).toMillisecondsSinceUnixEpoch.val
  let date := (Std.Time.PlainDate.ofEpochDay ⟨now.fdiv 86400000⟩).toSQLDateString
  let second := date ++ " " ++ twoDigits (now / 3600000 % 24) ++ ":" ++
    twoDigits (now / 60000 % 60) ++ ":" ++ twoDigits (now / 1000 % 60)
  let status ← try IO.FS.readFile "/proc/self/stat" catch _ => pure ""
  return {
    stamp := {
      time := second ++ "." ++ Double.padLeft 3 '0' (toString (now % 1000))
      second
      process := String.ofList (status.toList.takeWhile Char.isDigit) }
    now }

/-- Adds to a file, whose directory is made if it is not there. -/
def append (path text : String) : IO Unit := do
  let directory := String.ofList (path.toList.reverse.dropWhile (· != '/')).reverse
  unless directory.isEmpty do IO.FS.createDirAll directory
  IO.FS.withFile path .append fun file ↦ file.putStr text

/-- Writes what a command leaves behind. -/
def deliver (outcome : CommandLine.Outcome) : IO Unit := do
  outcome.out.forM fun line ↦ IO.println (Text.escaped line)
  outcome.err.forM fun line ↦ IO.eprintln (Text.escaped line)
  for (path, file) in outcome.logs.files do
    match file.content with
    | some text => append path text
    | none => pure ()
  match outcome.ending with
  | .escape failure =>
    IO.eprintln (failure.className ++ ": " ++ Text.escaped (failure.message?.getD ""))
  | _ => pure ()

end Metrology.Main

/-- Runs the program on the words of its command line. -/
def main (words : List String) : IO UInt32 := do
  let words := words.map Metrology.RawText.ofString
  let named := Metrology.CommandLine.Invocation.namedPaths words
  let paths := named ++ named.map Metrology.LogPath.plain
  let first ← Metrology.Main.snapshot paths
  let host ← Metrology.Main.snapshot (paths ++ Metrology.Main.settingsLog first words)
  let outcome := Metrology.CommandLine.run host (← Metrology.Main.currentMoment) words
  Metrology.Main.deliver outcome
  return outcome.exitCode.toUInt32
