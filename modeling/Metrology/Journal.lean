import Metrology.Failure

/-!
# Journals

A journal collects messages and appends them to a log file in batches. A message waits until enough
are waiting, or until the interval since the last batch has passed, or until it is flushed. What
waits is one text, the lines of all messages one after the other; how many they are is counted apart
from it.

## The file

A log file is its text, if it exists; a directory may stand in its place for a while, and then
nothing can be written. A text is written whole or not at all. `Journal.open?` writes a header,
`Journal.flush` what is waiting, and `Journal.close` a footer.

## A batch that cannot be written

A batch is given up when the file refuses it, and counted as an error. It is given up too when it
holds half a surrogate pair, but that is a failure of whoever asked for it.
-/

namespace Metrology

/-! ### Log files -/

/-- A log file. -/
structure LogFile where
  /-- The text, if the file exists. -/
  content : Option String := none
  /-- A directory stands in the place of the file. -/
  blocked : Bool := false
deriving DecidableEq, Repr

namespace LogFile

def exists? (f : LogFile) : Bool := f.blocked || f.content.isSome

/-- The text of the file. -/
def read (f : LogFile) : Except Failure String :=
  if f.blocked then .error .isDirectory
  else match f.content with
    | some text => .ok text
    | none => .error .fileMissing

/-- Writes at the end. -/
def append (f : LogFile) (text : String) : Except Failure LogFile :=
  if f.blocked then .error .isDirectory
  else .ok { f with content := some (f.content.getD "" ++ text) }

/-- Removes the file, if there is one. -/
def remove (f : LogFile) : Except Failure LogFile :=
  if f.blocked then .error .isDirectory else .ok { f with content := none }

end LogFile

/-! ### Entries -/

/-- The texts that depend on when and where a journal is written. -/
structure Stamp where
  /-- The time of a message, to the millisecond. -/
  time : String
  /-- The time of a header or a footer, to the second. -/
  second : String
  process : String
deriving DecidableEq, Repr

/-- Pads a text on the right. -/
def padRight (width : Nat) (text : String) : String :=
  text ++ String.ofList (List.replicate (width - text.length) ' ')

/-- The category before a message, if it has one that is not empty. -/
def categoryText : Option String → String
  | none | some "" => ""
  | some category => "[" ++ category ++ "] "

/-- A message as it is written, without the end of its line. -/
def entryText (time level : String) (category : Option String) (message : RawText) : RawText :=
  .ofString (time ++ " " ++ padRight 7 level ++ " - " ++ categoryText category) ++ message

/-- Lines, each with its end. -/
def joinLines (lines : List String) : String := String.join (lines.map (· ++ "\n"))

def rule : String := String.ofList (List.replicate 50 '=')

/-- The header of a journal. -/
def headerText (stamp : Stamp) (path : String) : String :=
  joinLines ["===== unitfmt Log =====", "Started: " ++ stamp.second, "Process: " ++ stamp.process,
    "Log File: " ++ path, rule]

/-- The footer of a journal. -/
def footerText (stamp : Stamp) (messages : Nat) : String :=
  joinLines [rule, "Completed: " ++ stamp.second,
    "Total messages logged: " ++ toString messages, "===== End of Log ====="]

/-! ### Journals -/

/-- A journal. Times are in milliseconds. -/
structure Journal where
  path : String
  /-- How many messages may wait. -/
  capacity : Int
  /-- How long a message may wait. -/
  interval : Int
  lastFlush : Int
  /-- The lines that wait, one after the other. -/
  buffer : RawText := ⟨[]⟩
  /-- How many messages wait. -/
  waiting : Nat := 0
  /-- How many messages were taken. -/
  messages : Nat := 0
  /-- How many characters were written in batches. -/
  written : Nat := 0
  /-- How many batches were written. -/
  flushes : Nat := 0
  errors : Nat := 0
deriving DecidableEq, Repr

namespace Journal

/-- The capacity and the interval of a journal that is not asked for others. -/
def defaultCapacity : Int := 1000

def defaultInterval : Int := 10000

/-- A new journal with its header written, over or after what the file holds. -/
def open? (file : LogFile) (stamp : Stamp) (now : Int) (path : String) (overwrite : Bool)
    (capacity interval : Int) : Except Failure (Journal × LogFile) := do
  let file ← if overwrite && file.exists? then file.remove else .ok file
  let file ← file.append (headerText stamp path)
  return ({ path, capacity, interval, lastFlush := now }, file)

/-- Nothing waits any longer. -/
def emptied (j : Journal) (now : Int) : Journal :=
  { j with buffer := ⟨[]⟩, waiting := 0, lastFlush := now }

/-- Writes what waits as one batch. Whatever becomes of it, nothing waits afterwards. -/
def flush (j : Journal) (file : LogFile) (now : Int) : Except Failure Unit × Journal × LogFile :=
  if j.waiting = 0 then (.ok (), j, file)
  else
    match file.append (j.buffer.toString?.getD ""), j.buffer.toString? with
    | .error _, _ => (.ok (), { j.emptied now with errors := j.errors + 1 }, file)
    | .ok file, none => (.error .unwritableText, j.emptied now, file)
    | .ok file, some batch =>
      (.ok (), { j.emptied now with
        written := j.written + batch.length, flushes := j.flushes + 1 }, file)

/-- No message waits after a batch, whatever became of it. -/
@[simp] theorem waiting_flush (j : Journal) (file : LogFile) (now : Int) :
    (j.flush file now).2.1.waiting = 0 := by
  unfold flush
  split
  · assumption
  · split <;> rfl

/-- A batch takes no messages. -/
@[simp] theorem messages_flush (j : Journal) (file : LogFile) (now : Int) :
    (j.flush file now).2.1.messages = j.messages := by
  unfold flush
  split
  · rfl
  · split <;> rfl

/-- An entry as a line of the buffer. -/
def line (entry : RawText) : RawText := entry ++ .ofString "\n"

/-- Takes an entry. -/
def accept (j : Journal) (entry : RawText) : Journal :=
  { j with
    buffer := j.buffer ++ line entry, waiting := j.waiting + 1, messages := j.messages + 1 }

@[simp] theorem buffer_accept (j : Journal) (entry : RawText) :
    (j.accept entry).buffer = j.buffer ++ line entry := rfl

@[simp] theorem waiting_accept (j : Journal) (entry : RawText) :
    (j.accept entry).waiting = j.waiting + 1 := rfl

@[simp] theorem messages_accept (j : Journal) (entry : RawText) :
    (j.accept entry).messages = j.messages + 1 := rfl

/-- As many messages wait as may, or the interval has passed. -/
def isDue (j : Journal) (now : Int) : Bool :=
  j.capacity ≤ j.waiting || j.interval ≤ now - j.lastFlush

/-- Takes a message, and writes what waits if that is due. -/
def log (j : Journal) (file : LogFile) (stamp : Stamp) (now : Int) (level : String)
    (category : Option String) (message : RawText) : Except Failure Unit × Journal × LogFile :=
  let j := j.accept (entryText stamp.time level category message)
  if j.isDue now then j.flush file now else (.ok (), j, file)

def countError (j : Journal) : Journal := { j with errors := j.errors + 1 }

/-- Takes an error message, and counts it unless that fails. -/
def logError (j : Journal) (file : LogFile) (stamp : Stamp) (now : Int)
    (category : Option String) (message : RawText) : Except Failure Unit × Journal × LogFile :=
  match j.log file stamp now "ERROR" category message with
  | (.ok (), j, file) => (.ok (), j.countError, file)
  | failed => failed

/-- Writes the footer. -/
def close (j : Journal) (file : LogFile) (stamp : Stamp) : Except Failure LogFile :=
  file.append (footerText stamp j.messages)

end Journal

end Metrology
