import Metrology.Converter
import Metrology.Document.Reader
import Metrology.Document.Writer
import Metrology.Journal.Path

/-!
# Settings

How converters behave, how many digits are shown, which units are added to the built-in ones, and
where to log. Settings are kept in a JSON object; every field may be left out.

`Settings.ofDocument` accepts an object with the known keys only, and checks all fields but the log
file. `Settings.fields` is the object of all fields, so reading it gives the same settings back.

What stands for the log file can be any value. It may be nested too deeply to be taken out of the
settings, and texts may hold what cannot be written; neither matters before it is asked for.
-/

namespace Metrology

/-- Settings that have been checked. -/
structure Settings where
  preferences : Preferences := {}
  significantDigits : Nat := 3
  /-- Multipliers of the units that are added, by symbol. -/
  extraUnits : List (RawText × Scalar) := []
  /-- The log file, if present; what stands here is not checked before it is used. -/
  logFile : Document := .null
  verbose : Bool := false

namespace Settings

/-! ### Fields -/

/-- The keys of the fields, in the order in which they are written. -/
def keys : List String :=
  ["parse_compound", "memoize", "fail_loud", "significant_digits", "extra_units", "log_file",
   "verbose"]

/-- The keys of an object that are no field, by code point. -/
def unknownKeys (members : List (RawText × Document)) : List RawText :=
  ((members.map Prod.fst).filter (· ∉ keys.map RawText.ofString)).mergeSort
    fun s t ↦ decide (s ≤ t)

/-- The value under a key. -/
def field? (members : List (RawText × Document)) (key : String) : Option Document :=
  members.lookup (.ofString key)

/-- A field that is true or false. -/
def flag (members : List (RawText × Document)) (key : String) (byDefault : Bool) :
    Except SettingsError Bool :=
  match field? members key with
  | none => .ok byDefault
  | some (.bool value) => .ok value
  | some _ => .error (.notBoolean key)

/-- The number of significant digits, a positive whole number. -/
def digitsField (members : List (RawText × Document)) : Except SettingsError Nat :=
  match field? members "significant_digits" with
  | none => .ok 3
  | some (.number (.int n)) => if 1 ≤ n then .ok n.toNat else .error .digitsNotPositive
  | some _ => .error .digitsNotPositive

/-- A multiplier that can be used: a number that is finite and not zero. Whether a whole number is
finite can only be told if it is not too large for a double. -/
def extraMultiplier (symbol : RawText) : Document → Except Failure Scalar
  | .number (.int n) =>
    if n = 0 then .error (.settings (.unusableExtraUnit symbol))
    else match (Scalar.int n).toDouble with
      | .ok _ => .ok (.int n)
      | .error e => .error (.number e)
  | .number (.double x) =>
    if x.isFiniteNonzero then .ok (.double x)
    else .error (.settings (.unusableExtraUnit symbol))
  | _ => .error (.settings (.unusableExtraUnit symbol))

/-- One added unit. -/
def extraUnit (entry : RawText × Document) : Except Failure (RawText × Scalar) := do
  if entry.1.isEmpty then .error (.settings .emptySymbol)
  else return (entry.1, ← extraMultiplier entry.1 entry.2)

/-- The units that are added. -/
def extraUnitsField (members : List (RawText × Document)) :
    Except Failure (List (RawText × Scalar)) :=
  match field? members "extra_units" with
  | none => .ok []
  | some (.object entries) => entries.mapM extraUnit
  | some _ => .error (.settings .extraUnitsNotMapping)

/-! ### Documents -/

/-- Settings from the members of an object. The flags are checked first, then the digits, then the
added units. -/
def ofMembers (members : List (RawText × Document)) : Except Failure Settings := do
  let unknown := unknownKeys members
  if !unknown.isEmpty then .error (.settings (.unknownKeys unknown))
  else
    let checked {α : Type} (field : Except SettingsError α) : Except Failure α :=
      field.mapError Failure.settings
    let parseCompound ← checked (flag members "parse_compound" true)
    let memoize ← checked (flag members "memoize" true)
    let failLoud ← checked (flag members "fail_loud" true)
    let verbose ← checked (flag members "verbose" false)
    let significantDigits ← checked (digitsField members)
    let extraUnits ← extraUnitsField members
    return {
      preferences := { parseCompound, memoize, failLoud }
      significantDigits, extraUnits, verbose
      logFile := (field? members "log_file").getD .null }

/-- Settings from a document that was read from a file. -/
def ofDocument (path : RawText) : Document → Except Failure Settings
  | .object members => ofMembers members
  | _ => .error (.settings (.notAnObject path))

/-- The object of all fields. -/
def fields (s : Settings) : Document :=
  .object <| [
    ("parse_compound", .bool s.preferences.parseCompound),
    ("memoize", .bool s.preferences.memoize),
    ("fail_loud", .bool s.preferences.failLoud),
    ("significant_digits", .number (.int s.significantDigits)),
    ("extra_units", .object (s.extraUnits.map fun (symbol, multiplier) ↦
      (symbol, .number multiplier))),
    ("log_file", s.logFile),
    ("verbose", .bool s.verbose)].map fun (key, value) ↦ (.ofString key, value)

/-- How deep the value of a field may be nested to be taken out of settings. -/
def maxFieldDepth : Nat := 490

/-- The object of all fields, unless one is nested too deeply. -/
def toDocument (s : Settings) : Except Failure Document :=
  if maxFieldDepth < s.logFile.depth then .error .documentTooDeep else .ok s.fields

/-! ### Files -/

/-- Settings from the text of a file. What is said of a text that is no document is up to the reader
of documents; any wording will do. -/
def ofText (wording : String → String) (path : RawText) (text : String) :
    Except Failure Settings :=
  match Document.read text with
  | .ok document => ofDocument path document
  | .error .malformed => .error (.settings (.invalidDocument path (wording text)))
  | .error .nestedTooDeeply => .error .documentTooDeep
  | .error (.tooManyDigits count) => .error (.number (.tooManyDigits count))

/-- Settings from the bytes of a file, or from what the machine says why there are none. Failures
name the file by the plain form of its path. -/
def ofBytes (wording : String → String) (path : RawText) (content : Except String ByteArray) :
    Except Failure Settings :=
  match content with
  | .error cause => .error (.settings (.unreadable (LogPath.plain path) cause))
  | .ok bytes =>
    match String.fromUTF8? bytes with
    | none => .error .notText
    | some text => ofText wording (LogPath.plain path) text

/-- The text of a file that holds the settings, if there can be one. -/
def save (s : Settings) : Except Failure String := do
  let document ← s.toDocument
  match document.write with
  | .ok text => .ok text
  | .error .unwritableText => .error .unwritableText
  | .error .tooManyDigits => .error (.number .unwritableDigits)

/-- The same settings in every field. -/
def equal (s t : Settings) : Bool := s.fields == t.fields

/-! ### Use -/

/-- A registry with one added unit. -/
def addUnit (r : Registry) (entry : RawText × Scalar) : Except Failure Registry :=
  match r.insertScalar entry.1 entry.2 with
  | .ok r => .ok r
  | .error (.registry cause) => .error (.settings (.refusedExtraUnit entry.1 cause))
  | .error e => .error e

/-- The base registry, or else the built-in one, with the added units. -/
def buildRegistry (s : Settings) (base : Option Registry) : Except Failure Registry :=
  s.extraUnits.foldlM addUnit (base.getD Registry.builtIn)

/-- A converter that behaves as the settings say. -/
def buildConverter (s : Settings) : Except Failure Converter := do
  return { registry := ← s.buildRegistry none, preferences := s.preferences }

end Settings

end Metrology
