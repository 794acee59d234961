import Metrology.Journal
import Metrology.Text.Template

/-!
# The tree of loggers

Loggers have dotted names and pass their records to all journals that are attached. A record passes
when it is at least as severe as the level of its logger, which is the level of the nearest ancestor
that has one of its own. Of the records that pass, a journal takes those that are at least as severe
as debugging.

One journal is **shared**: it is opened by the first to ask for it and stays the same until logging
is shut down. Opening a journal attaches it; finalizing detaches it.
-/

namespace Metrology

/-! ### Severity -/

/-- How severe a record is, or at least how severe it must be. Any whole number will do, but some
have names. -/
structure Severity where
  rank : Int
deriving DecidableEq, Repr

namespace Severity

def debug : Severity := ⟨10⟩

def info : Severity := ⟨20⟩

def warning : Severity := ⟨30⟩

def error : Severity := ⟨40⟩

def critical : Severity := ⟨50⟩

/-- The severity of a logger that has none of its own. -/
def unset : Severity := ⟨0⟩

/-- The severities that have names. -/
def names : List (Severity × String) :=
  [(critical, "CRITICAL"), (error, "ERROR"), (warning, "WARNING"), (info, "INFO"),
   (debug, "DEBUG"), (unset, "NOTSET")]

def name (severity : Severity) : String :=
  (names.lookup severity).getD ("Level " ++ toString severity.rank)

/-- The severity of a given name. -/
def ofName? (name : String) : Option Severity :=
  (names.find? fun entry ↦ entry.2 = name).map Prod.fst

@[simp] theorem ofName?_name {severity : Severity} (h : severity ∈ names.map Prod.fst) :
    ofName? severity.name = some severity :=
  (by decide : ∀ severity ∈ names.map Prod.fst, ofName? severity.name = some severity) severity h

end Severity

/-! ### Names -/

/-- The name of the root of the tree. -/
def rootLogger : String := "root"

/-- The name of a logger; the empty name is the root's. -/
def loggerName (name : String) : String := if name.isEmpty then rootLogger else name

/-- The names above one, nearest first, from its dots before a position. The search for the next dot
passes over the character before the last one found. -/
def ancestorsBelow (name : List Char) : Nat → List String
  | 0 | 1 => []
  | position + 2 =>
    if name[position + 1]? = some '.' then
      String.ofList (name.take (position + 1)) :: ancestorsBelow name position
    else ancestorsBelow name (position + 1)

/-- A logger's name and the names above it, nearest first, without the root. -/
def lineage (name : String) : List String :=
  if name = rootLogger then [] else name :: ancestorsBelow name.toList name.length

/-! ### The tree -/

/-- Loggers, journals and log files. -/
structure LogTree where
  /-- The levels that loggers were given. -/
  levels : List (String × Severity) := [("QuantityConverter", .warning)]
  rootLevel : Severity := .warning
  /-- All journals ever opened, by number. -/
  journals : List Journal := []
  /-- The numbers of the journals that are attached, in the order of their opening. -/
  attached : List Nat := []
  /-- The number of the shared journal. -/
  shared : Option Nat := none
  files : List (String × LogFile) := []
  /-- Other names of files. -/
  links : List (String × String) := []

namespace LogTree

/-! ### Files -/

/-- The proper name of a file. -/
def properName (t : LogTree) (path : String) : String := (t.links.lookup path).getD path

def file (t : LogTree) (path : String) : LogFile := (t.files.lookup (t.properName path)).getD {}

/-- Puts a file in the place of the one of that name. -/
def setFile (t : LogTree) (path : String) (f : LogFile) : LogTree :=
  let name := t.properName path
  { t with files := (name, f) :: t.files.filter fun entry ↦ entry.1 ≠ name }

/-- Puts a directory in the place of a file, which must exist, or takes it away again. -/
def setBlocked (t : LogTree) (path : String) (blocked : Bool) : Except Failure Unit × LogTree :=
  let f := t.file path
  if f.content.isNone then (.error .fileMissing, t)
  else (.ok (), t.setFile path { f with blocked })

/-! ### Levels -/

/-- The loggers of the library, whose levels are set together with the root's. -/
def libraryLoggers : List String := ["unitfmt", "QuantityConverter"]

/-- Sets the level of the root and of the loggers of the library. -/
def setLevels (t : LogTree) (level : Severity) : LogTree :=
  { t with
    rootLevel := level
    levels := libraryLoggers.map (·, level) ++
      t.levels.filter fun entry ↦ entry.1 ∉ libraryLoggers }

/-- The level that a logger has of its own. -/
def ownLevel? (t : LogTree) (name : String) : Option Severity :=
  (t.levels.lookup name).filter (· ≠ .unset)

/-- The level that counts for a logger. -/
def levelOf (t : LogTree) (name : String) : Severity :=
  ((lineage name).findSome? t.ownLevel?).getD t.rootLevel

/-- Records of a severity pass a logger. None pass that are not more severe than nothing. -/
def isEnabled (t : LogTree) (name : String) (severity : Severity) : Bool :=
  0 < severity.rank && (t.levelOf name).rank ≤ severity.rank

/-- How severe a record must be for a journal to take it. -/
def journalLevel : Severity := .debug

/-- Journals take the records of a severity that are sent to a logger. -/
def isTaken (t : LogTree) (name : String) (severity : Severity) : Bool :=
  t.isEnabled name severity && journalLevel.rank ≤ severity.rank

/-! ### Journals -/

/-- What all operations of a moment share. -/
structure Moment where
  stamp : Stamp
  now : Int := 0

/-- The journal of a number. -/
def journal (t : LogTree) (number : Nat) : Journal :=
  (t.journals[number]?).getD { path := "", capacity := 0, interval := 0, lastFlush := 0 }

/-- Puts a journal and its file back after use. -/
def putBack (t : LogTree) (number : Nat) (j : Journal) (f : LogFile) : LogTree :=
  { t.setFile j.path f with journals := t.journals.set number j }

/-- Uses a journal with its file. -/
def use {α : Type} (t : LogTree) (number : Nat)
    (action : Journal → LogFile → α × Journal × LogFile) : α × LogTree :=
  let j := t.journal number
  let (answer, j, f) := action j (t.file j.path)
  (answer, t.putBack number j f)

/-- Opens a journal, attaches it, and sets the levels to let informative records pass. When the file
cannot be written nothing changes. -/
def openJournal (t : LogTree) (moment : Moment) (path : String) (overwrite : Bool)
    (capacity interval : Int) : Except Failure Nat × LogTree :=
  match Journal.open? (t.file path) moment.stamp moment.now path overwrite capacity interval with
  | .error e => (.error e, t)
  | .ok (j, f) =>
    let number := t.journals.length
    let t := { t with journals := t.journals ++ [j], attached := t.attached ++ [number] }
    (.ok number, (t.setFile path f).setLevels .info)

/-- Detaches a journal. -/
def detach (t : LogTree) (number : Nat) : LogTree :=
  { t with attached := t.attached.filter (· ≠ number) }

/-- Finalizes a journal: what waits is written, the journal is detached, and then it gets its
footer. The first of these that fails is the last. -/
def finalize (t : LogTree) (moment : Moment) (number : Nat) : Except Failure Unit × LogTree :=
  match t.use number (·.flush · moment.now) with
  | (.error e, t) => (.error e, t)
  | (.ok (), t) =>
    let t := t.detach number
    let j := t.journal number
    match j.close (t.file j.path) moment.stamp with
    | .ok f => (.ok (), t.setFile j.path f)
    | .error e => (.error e, t)

/-- The shared journal, opened at a path if there is none. -/
def share (t : LogTree) (moment : Moment) (path : String) (overwrite : Bool) :
    Except Failure Nat × LogTree :=
  match t.shared with
  | some number => (.ok number, t)
  | none =>
    match t.openJournal moment path overwrite Journal.defaultCapacity Journal.defaultInterval with
    | (.ok number, t) => (.ok number, { t with shared := some number })
    | (.error e, t) => (.error e, t)

/-- The shared journal, opened at a path if there is none. Verbose logging lets every record pass.
-/
def setup (t : LogTree) (moment : Moment) (path : String) (overwrite verbose : Bool) :
    Except Failure Nat × LogTree :=
  match t.share moment path overwrite with
  | (.ok number, t) => (.ok number, if verbose then t.setLevels .debug else t)
  | (.error e, t) => (.error e, t)

/-- Where the shared journal is kept unless a path is given. -/
def defaultPath : String := "unitfmt.log"

/-- The shared journal. -/
def get (t : LogTree) (moment : Moment) : Except Failure Nat × LogTree :=
  match t.shared with
  | some number => (.ok number, t)
  | none => t.setup moment defaultPath false false

/-- Finalizes the shared journal; after that there is none. A journal that cannot be finalized stays
the shared one. -/
def shutdown (t : LogTree) (moment : Moment) : Except Failure Unit × LogTree :=
  match t.shared with
  | none => (.ok (), t)
  | some number =>
    match t.finalize moment number with
    | (.ok (), t) => (.ok (), { t with shared := none })
    | (.error e, t) => (.error e, t)

/-! ### Records -/

/-- Sends a record to a logger: each attached journal takes it, if it passes and is severe enough.
What fails there does not reach the sender. -/
def send (t : LogTree) (moment : Moment) (name : String) (severity : Severity)
    (message : RawText) : LogTree :=
  let name := loggerName name
  if t.isTaken name severity then
    t.attached.foldl
      (fun t number ↦ (t.use number fun j f ↦
        j.log f moment.stamp moment.now severity.name none
          (.ofString (name ++ " - ") ++ message)).2) t
  else t

/-- Sends a record whose message is a template with arguments. One that has no message is dropped.
-/
def sendFilled (t : LogTree) (moment : Moment) (name : String) (severity : Severity)
    (template : String) (arguments : List Document) : LogTree :=
  match Text.fillTemplate? template arguments with
  | some message => t.send moment name severity message
  | none => t

/-- The logger of converters. -/
def converterLogger : String := "QuantityConverter"

/-- Sends what converters remarked. -/
def sendRemarks (t : LogTree) (moment : Moment) (remarks : List RawText) : LogTree :=
  remarks.foldl (fun t remark ↦ t.send moment converterLogger .debug remark) t

end LogTree

end Metrology
