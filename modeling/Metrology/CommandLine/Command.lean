import Metrology.CommandLine.Words
import Metrology.Converter

/-!
# Commands

What can be asked on a command line, and how words ask for it. The first words are options of the
whole program; then comes the name of a command and the command's own words.

`Invocation.read` reads all of it at once. Words of a command that make no sense are found only when
the command is due, so an invocation keeps the reading of its command as it came out.
-/

namespace Metrology.CommandLine

/-! ### Readings -/

/-- What words ask for. -/
inductive Reading (α : Type) where
  | run (request : α)
  | help
  | version
  /-- The words make no sense. -/
  | misuse
  /-- A path that cannot even be looked up is among the words. -/
  | badPath
deriving DecidableEq, Repr

/-- The option that asks for help, which every command has. -/
def helpOption : OptionRule := { name := "help" }

/-- Reads words by rules; what they are for is up to the command. Help is given whatever the other
words are. -/
def readBy {α : Type} (rules : WordRules) (build : Words → Option α) (words : List RawText) :
    Reading α :=
  match split? rules words with
  | none => .misuse
  | some words =>
    if words.has "help" then .help
    else match build words with
      | some request => .run request
      | none => .misuse

/-! ### Commands -/

/-- A command with all it needs. -/
inductive Command where
  /-- Converts a value to or from internal units. -/
  | internal (direction : Direction) (value : Double) (unit : RawText) (noParse quiet : Bool)
  | convert (value : Double) (source target : RawText)
  /-- Tells which units can be converted. -/
  | check (units : List RawText) (noParse : Bool)
  | format (value : Double) (unit : RawText) (style : Style) (digits : Option Int)
      (unicode : Bool)
  | position (latitude longitude : Double) (unit : RawText) (decimal : Bool) (places : Option Int)
deriving DecidableEq

/-- The commands by name. -/
inductive CommandName where
  | internal (direction : Direction)
  | convert
  | check
  | format
  | position
deriving DecidableEq, Repr

namespace CommandName

def all : List CommandName :=
  [internal .toInternal, internal .fromInternal, convert, check, format, position]

def text : CommandName → String
  | internal .toInternal => "to-internal"
  | internal .fromInternal => "from-internal"
  | convert => "convert"
  | check => "check"
  | format => "format"
  | position => "latlon"

def ofText? (text : RawText) : Option CommandName :=
  all.find? fun name ↦ .ofString name.text = text

@[simp] theorem ofText?_text (name : CommandName) : ofText? name.text = some name := by
  rcases name with direction | _ | _ | _ | _
  · cases direction <;> rfl
  all_goals rfl

/-- How the words of a command are split. Where numbers are expected unknown options are arguments,
so that a number can be negative. -/
def rules : CommandName → WordRules
  | internal _ =>
    { options := [helpOption, { name := "no-parse" }, { name := "quiet", letter := some 'q' }]
      lenient := true }
  | convert => { options := [helpOption], lenient := true }
  | check => { options := [helpOption, { name := "no-parse" }] }
  | format =>
    { options := [helpOption,
        { name := "unit", letter := some 'u', takesValue := true },
        { name := "style", letter := some 's', takesValue := true },
        { name := "digits", letter := some 'd', takesValue := true },
        { name := "unicode" }]
      lenient := true }
  | position =>
    { options := [helpOption,
        { name := "unit", letter := some 'u', takesValue := true },
        { name := "decimal" },
        { name := "precision", letter := some 'p', takesValue := true }]
      lenient := true }

/-- The arguments as help shows them. -/
def argumentText : CommandName → String
  | internal _ => "VALUE UNIT"
  | convert => "VALUE FROM_UNIT TO_UNIT"
  | check => "UNITS..."
  | format => "VALUE"
  | position => "LATITUDE LONGITUDE"

end CommandName

/-- The double that a word denotes. -/
def doubleWord? (word : RawText) : Option Double := word.toString?.bind Text.readDouble?

/-- The whole number that an option gives, if it is there and a whole number. -/
def wholeOption? (words : Words) (name : String) : Option (Option Int) :=
  match words.value? name with
  | none => some none
  | some word => (word.toString?.bind Text.readInt?).map some

/-- The style that an option gives. -/
def styleOption? (words : Words) : Option Style :=
  match words.value? "style" with
  | none => some .plain
  | some word => word.toString?.bind Style.ofName?

/-- A command from its words. -/
def Command.ofWords? (name : CommandName) (words : Words) : Option Command :=
  match name, words.arguments with
  | .internal direction, [value, unit] => do
    return .internal direction (← doubleWord? value) unit (words.has "no-parse")
      (words.has "quiet")
  | .convert, [value, source, target] => do
    return .convert (← doubleWord? value) source target
  | .check, unit :: units => some (.check (unit :: units) (words.has "no-parse"))
  | .format, [value] => do
    return .format (← doubleWord? value) ((words.value? "unit").getD "") (← styleOption? words)
      (← wholeOption? words "digits") (words.has "unicode")
  | .position, [latitude, longitude] => do
    return .position (← doubleWord? latitude) (← doubleWord? longitude)
      ((words.value? "unit").getD "deg") (words.has "decimal") (← wholeOption? words "precision")
  | _, _ => none

/-- Reads the words of a command. -/
def Command.read (name : CommandName) (words : List RawText) : Reading Command :=
  readBy name.rules (Command.ofWords? name) words

/-! ### Invocations -/

/-- What stands under a path. -/
inductive Entry where
  | missing
  | directory
  | file (content : ByteArray)

/-- What a call finds. -/
structure Host where
  /-- Files and directories by path. -/
  disk : RawText → Entry
  /-- What is said of a text that is no document. -/
  wording : String → String

/-- A program call: options of the whole program and a command. -/
structure Invocation where
  /-- The settings file. -/
  config : Option RawText
  /-- The log file, which goes before the one in the settings unless it is empty. -/
  logFile : Option RawText
  verbose : Bool
  command : CommandName
  request : Reading Command

namespace Invocation

/-- How the first words are split. They end at the first argument, the name of the command. -/
def rules : WordRules :=
  { options := [helpOption, { name := "version" },
      { name := "config", letter := some 'c', takesValue := true },
      { name := "log-file", takesValue := true },
      { name := "verbose", letter := some 'v' }]
    mixed := false }

/-- All paths that words may name: the values of their options. -/
def namedPaths (words : List RawText) : List RawText :=
  match split? rules words with
  | some words => words.options.map Prod.snd
  | none => []

/-- A file is there. -/
def isFile (host : Host) (path : RawText) : Bool :=
  match host.disk path with
  | .file _ => true
  | _ => false

/-- The log file can be one. -/
def isLogFile (host : Host) (path : RawText) : Bool :=
  match host.disk path with
  | .directory => false
  | _ => true

/-- What is wrong with the path that an option gives, if it gives one. -/
def pathProblem? (host : Host) (words : Words) (name : String) : Option (Reading Invocation) := do
  let path ← words.value? name
  let suits ← [("config", isFile host path), ("log-file", isLogFile host path)].lookup name
  if .char '\x00' ∈ path.points then some .badPath else if suits then none else some .misuse

/-- The first word is no name of a command but something else. -/
def isMarked (name : RawText) : Bool :=
  match name.points with
  | .char c :: _ => c.toNat < 0x80 && !c.isAlphanum
  | .half _ _ :: _ => true
  | [] => false

/-- The command and its words, under options of the whole program. Paths are looked at first, in the
order in which their options are given. -/
def ofWords (host : Host) (words : Words) : Reading Invocation :=
  match words.options.findSome? (pathProblem? host words ·.1), words.arguments with
  | some problem, _ => problem
  | none, [] => .misuse
  | none, name :: rest =>
    match CommandName.ofText? name with
    | some command =>
      .run { config := words.value? "config", logFile := words.value? "log-file",
             verbose := words.has "verbose", command, request := Command.read command rest }
    | none => if isMarked name then .help else .misuse

/-- Reads all words. Help and version are given whatever the other words are; of the two the first
counts. -/
def read (host : Host) (words : List RawText) : Reading Invocation :=
  if words.isEmpty then .help
  else match split? rules words with
    | none => .misuse
    | some words =>
      match words.options.find? fun option ↦ option.1 = "help" ∨ option.1 = "version" with
      | some (name, _) => if name = "help" then .help else .version
      | none => ofWords host words

end Invocation

end Metrology.CommandLine
