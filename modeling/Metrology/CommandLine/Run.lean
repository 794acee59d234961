import Metrology.CommandLine.Check
import Metrology.CommandLine.Command
import Metrology.Journal.Path
import Metrology.Journal.Tree
import Metrology.Rendering.Angle
import Metrology.Settings
import Metrology.Text.Escape

/-!
# Running a command

From the words of a command line to lines on the standard streams, a log and an exit code.

A call loads its settings, opens the log if there is to be one, makes a converter, and only then
reads and performs its command. The library's own failures are reported by their message; a failure
of another kind escapes, and so does any failure while the converter is made. On every way out the
log gets its footer, unless what it holds cannot be written; then that is how the call ends.

## Streams

The standard output takes proper texts only. A line that cannot be written there ends the command,
and nothing of it is written. The error stream takes any text (`Text.escaped`).

Results and reports are written without control sequences; records keep them.

## Logging

Conversions to and from internal units are recorded when they succeed, and reported failures in any
case. When no log is open a recorded failure stands on the error stream before the report. What
converters remark stands there too, and in the log, when the log is verbose.
-/

namespace Metrology.CommandLine

/-! ### Outcomes -/

/-- How a call ends. -/
inductive Ending where
  | exit (code : Nat)
  /-- The words make no sense, and it is told how the program or the command is called. -/
  | misuse (usage : RawText)
  /-- A failure is reported by its message. -/
  | report (message : RawText)
  /-- A failure that no command reports. -/
  | escape (failure : Failure)
deriving DecidableEq

namespace Ending

def exitCode : Ending → Nat
  | exit code => code
  | misuse _ => 2
  | report _ | escape _ => 1

/-- The line that reports a failure. -/
def errorLine (message : RawText) : RawText := Text.dropSequences ("Error: " ++ message)

/-- What stands on the error stream at the end. What is said of a failure that escapes is not the
library's. -/
def lines : Ending → List RawText
  | misuse usage => [usage]
  | report message => [errorLine message]
  | exit _ | escape _ => []

end Ending

/-- What a call leaves behind. -/
structure Outcome where
  ending : Ending
  /-- The lines on the standard output. -/
  out : List RawText := []
  /-- The lines on the error stream before those of the end. -/
  notes : List RawText := []
  logs : LogTree := {}

namespace Outcome

def exitCode (o : Outcome) : Nat := o.ending.exitCode

/-- The lines on the error stream. -/
def err (o : Outcome) : List RawText := o.notes ++ o.ending.lines

end Outcome

/-! ### Performing a command -/

/-- What a command does: its lines, what it records of a success, and its exit code or failure. -/
structure Deed where
  lines : List RawText := []
  record : Option String := none
  answer : Except Failure Nat := .ok 0

namespace Deed

/-- One line, if it can be written, or a failure. -/
def ofText : Except Failure RawText → Deed
  | .ok text =>
    if text.isWritable then { lines := [text] } else { answer := .error .unwritableText }
  | .error failure => { answer := .error failure }

/-- A converted value, or a failure. -/
def ofValue (answer : Except Failure Value) : Deed :=
  ofText (answer.map fun value ↦ .ofString (valueText value))

end Deed

/-- What a conversion to or from internal units records. -/
def conversionRecord (direction : Direction) (value : Double) (unit : RawText) (result : Value) :
    String :=
  (CommandName.internal direction).text ++ " " ++ value.text ++ " " ++ Text.quoted unit ++ " -> " ++
    valueText result

/-- Converts a value to or from internal units and records it. -/
def performInternal (c : Converter) (direction : Direction) (value : Double) (unit : RawText)
    (noParse quiet : Bool) : Deed × Converter :=
  let request : Request := { parseCompound := some !noParse, failLoud := some !quiet }
  match c.convertBy direction request (.ofDouble value) (some unit) with
  | (.ok result, c) =>
    ({ lines := [.ofString (valueText result)]
       record := some (conversionRecord direction value unit result) }, c)
  | (.error failure, c) => ({ answer := .error failure }, c)

/-- Checks units; the exit code tells whether any is invalid. -/
def performCheck (c : Converter) (units : List RawText) (noParse : Bool) : Deed × Converter :=
  match judge noParse c units with
  | (verdicts, none, c) =>
    let causes := causes verdicts
    ({ lines := verdicts.map Verdict.line ++ summaryLines units.length causes
       answer := .ok (if causes.isEmpty then 0 else 1) }, c)
  | (verdicts, some failure, c) =>
    ({ lines := verdicts.map Verdict.line, answer := .error failure }, c)

/-- Performs a command with a converter. The digits that a command leaves open are taken from the
settings. -/
def Command.perform (settings : Settings) (c : Converter) : Command → Deed × Converter
  | .internal direction value unit noParse quiet =>
    performInternal c direction value unit noParse quiet
  | .convert value source target =>
    let (answer, c) := c.convert none (.ofDouble value) (some source) (some target)
    (.ofValue answer, c)
  | .check units noParse => performCheck c units noParse
  | .format value unit style digits unicode =>
    let digits := digits.getD settings.significantDigits
    let (answer, c) := Rendering.quantity c (.ofDouble value) unit style digits unicode
    (.ofText answer, c)
  | .position latitude longitude unit decimal places =>
    let (answer, c) := Rendering.position c { decimal, places } (.ofDouble latitude)
      (.ofDouble longitude) (some unit)
    (.ofText (answer.map .ofString), c)

/-! ### Reporting -/

/-- The logger of commands. -/
def commandLogger : String := "unitfmt.cli"

/-- What converters remarked, as lines on the error stream, if records of it pass their logger. -/
def remarkLines (logs : LogTree) (remarks : List RawText) : List RawText :=
  if logs.isEnabled LogTree.converterLogger .debug then
    remarks.map (.ofString (LogTree.converterLogger ++ " - " ++ Severity.debug.name ++ " - ") ++ ·)
  else []

/-- Sends the record of a success, if there is one. -/
def recordSuccess (logs : LogTree) (moment : LogTree.Moment) (record : Option String) : LogTree :=
  match record with
  | some message => logs.send moment commandLogger .info message
  | none => logs

/-- The outcome of a deed. The record of a failure is a line when no journal is there to take it. -/
def report (logs : LogTree) (moment : LogTree.Moment) (deed : Deed) : Outcome :=
  let out := deed.lines.map Text.dropSequences
  match deed.answer with
  | .ok code => { ending := .exit code, out, logs := recordSuccess logs moment deed.record }
  | .error failure =>
    match failure.ownMessage? with
    | none => { ending := .escape failure, out, logs }
    | some message =>
      { ending := .report message
        out
        notes := if logs.attached.isEmpty then [message] else []
        logs := logs.send moment commandLogger .error message }

/-! ### Help -/

def programName : String := "unitfmt"

def programVersion : String := "1.0.0"

/-- How the whole program is called. -/
def usage : String := "Usage: " ++ programName ++ " [OPTIONS] COMMAND [ARGS]..."

/-- How a command is called. -/
def commandUsage (command : CommandName) : String :=
  "Usage: " ++ programName ++ " " ++ command.text ++ " [OPTIONS] " ++ command.argumentText

/-- Help on the whole program. -/
def helpLines : List RawText :=
  (usage :: "" :: "Commands:" :: CommandName.all.map fun command ↦
    "  " ++ command.text ++ " " ++ command.argumentText).map .ofString

/-! ### Invocations -/

namespace Invocation

/-- The bytes under a path, or what the machine says why there are none. -/
def content (host : Host) (path : RawText) : Except String ByteArray :=
  match host.disk path with
  | .file bytes => .ok bytes
  | .missing => .error ("[Errno 2] No such file or directory: " ++ Text.quoted path)
  | .directory => .error ("[Errno 21] Is a directory: " ++ Text.quoted path)

/-- The settings of a call: those of its file, or else of no file, with its own options on top. -/
def settings (i : Invocation) (host : Host) : Except Failure Settings := do
  let s ← match i.config with
    | none => .ok {}
    | some path => Settings.ofBytes host.wording path (content host (LogPath.plain path))
  let logFile := match i.logFile with
    | none | some ⟨[]⟩ => s.logFile
    | some path => .text path
  return { s with logFile, verbose := s.verbose || i.verbose }

/-- A file stands in the way when directories are made. -/
def checkDirectories (host : Host) : List String → Except Failure Unit
  | [] => .ok ()
  | nearest :: further =>
    if isFile host nearest then .error .isFile
    else if further.any (isFile host ·) then .error .notADirectory
    else .ok ()

/-- The name of a log file whose directories can be made. -/
def logName (host : Host) (path : RawText) : Except Failure String := do
  let name ← LogPath.check path
  checkDirectories host (LogPath.directories name)
  return name

/-- Opens the log that settings ask for. -/
def openLog (settings : Settings) (host : Host) (moment : LogTree.Moment) :
    Except Failure Unit × LogTree :=
  match settings.logFile with
  | .text path =>
    if path.isEmpty then (.ok (), {})
    else match logName host path with
      | .error failure => (.error failure, {})
      | .ok path =>
        let logs : LogTree := { files := [(path, { blocked := !isLogFile host path })] }
        let (answer, logs) := logs.setup moment path false settings.verbose
        (answer.map fun _ ↦ (), logs)
  | logFile => (if logFile.isPresent then .error .notAPath else .ok (), {})

/-- Performs the command of a call, with settings that have been loaded and a log that is open. -/
def perform (i : Invocation) (settings : Settings) (moment : LogTree.Moment) (logs : LogTree) :
    Outcome :=
  match settings.buildConverter with
  | .error failure => { ending := .escape failure, logs }
  | .ok converter =>
    match i.request with
    | .run command =>
      let (deed, converter) := command.perform settings converter
      let outcome := report (logs.sendRemarks moment converter.remarks) moment deed
      { outcome with notes := remarkLines logs converter.remarks ++ outcome.notes }
    | .misuse => { ending := .misuse (commandUsage i.command), logs }
    | _ => { ending := .exit 0, out := [commandUsage i.command], logs }

/-- Closes the log of an outcome. A log that cannot be closed is how the call ends. -/
def closeLog (outcome : Outcome) (moment : LogTree.Moment) : Outcome :=
  match outcome.logs.shutdown moment with
  | (.ok (), logs) => { outcome with logs }
  | (.error failure, logs) => { outcome with ending := .escape failure, logs }

/-- Runs a call. Settings that are refused are reported. -/
def run (i : Invocation) (host : Host) (moment : LogTree.Moment) : Outcome :=
  match i.settings host with
  | .error (.settings cause) => { ending := .report cause.message }
  | .error failure => { ending := .escape failure }
  | .ok settings =>
    match openLog settings host moment with
    | (.error failure, logs) => { ending := .escape failure, logs }
    | (.ok (), logs) => closeLog (i.perform settings moment logs) moment

end Invocation

/-- Runs the program on words. -/
def run (host : Host) (moment : LogTree.Moment) (words : List RawText) : Outcome :=
  match Invocation.read host words with
  | .run invocation => invocation.run host moment
  | .help => { ending := .exit 0, out := helpLines }
  | .version =>
    { ending := .exit 0, out := [.ofString (programName ++ ", version " ++ programVersion)] }
  | .misuse => { ending := .misuse usage }
  | .badPath => { ending := .escape .zeroInPath }

end Metrology.CommandLine
