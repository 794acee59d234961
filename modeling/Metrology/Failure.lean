import Metrology.Rendering.Style
import Metrology.Text.Quoted
import Metrology.Value

/-!
# What can go wrong

The causes of failure, by the part of the library that finds them, and their wording. A failure
keeps what it is about, so that a caller can tell causes apart without reading messages.

A message may carry details, pairs of a name and a text; they are written after it in parentheses.
-/

namespace Metrology

/-- Details as they follow a message. -/
def detailText (details : List (String × RawText)) : RawText :=
  if details.isEmpty then ""
  else
    " (Details: " ++ .join ", " (details.map fun (name, text) ↦ name ++ "=" ++ text) ++ ")"

/-- A detail that is left out when its text is empty. -/
def optionalDetail (name : String) (text : RawText) : List (String × RawText) :=
  if text.isEmpty then [] else [(name, text)]

/-! ### Units that cannot be resolved -/

/-- Why a part of a unit expression has no multiplier. -/
inductive Fault where
  | unmatchedParenthesis
  /-- Nothing stands where an operand is needed. -/
  | emptyPart
  /-- Neither a registered symbol nor a literal. -/
  | unknownPart
  /-- A nonlinear unit, which has no multiplier. -/
  | nonlinearPart
  /-- An operation without a result. -/
  | notEvaluable
  /-- An operation with a result that is not finite. -/
  | notFinite (value : Double)
  | zeroMultiplier
  | nestedTooDeeply
deriving DecidableEq

namespace Fault

/-- The wording of a fault at a part. -/
def message (fault : Fault) (part : RawText) : RawText :=
  match fault with
  | unmatchedParenthesis => "Unmatched parenthesis in '" ++ part ++ "'"
  | emptyPart => "Empty unit subexpression"
  | unknownPart => "Cannot resolve unit '" ++ part ++ "'"
  | nonlinearPart => "Nonlinear unit '" ++ part ++ "' cannot be part of a compound unit"
  | notEvaluable => "Cannot evaluate '" ++ part ++ "'"
  | notFinite value => "'" ++ part ++ "' evaluates to " ++ value.text
  | zeroMultiplier => "Unit '" ++ part ++ "' resolves to a zero multiplier"
  | nestedTooDeeply => "Unit expression is nested too deeply"

end Fault

/-- Why a quantity cannot be converted. A unit that is not given at all is shown as `None`. -/
inductive UnitError where
  /-- Not registered, and expressions are not to be parsed. -/
  | unknown (unit : Option RawText)
  /-- A part of an expression has no multiplier. -/
  | unresolved (fault : Fault) (part expression : RawText)
  /-- A nonlinear unit was asked for its multiplier. -/
  | noMultiplier (unit : RawText)
  /-- A conversion between two units failed on one of them. -/
  | between (source target : Option RawText) (cause : UnitError)
deriving DecidableEq

namespace UnitError

/-- A unit as messages show it. -/
def shown (unit : Option RawText) : RawText := unit.getD "None"

def details : UnitError → List (String × RawText)
  | unknown unit => optionalDetail "from_unit" (unit.getD "")
  | unresolved _ part expression =>
    optionalDetail "from_unit" expression ++ [("substring", .ofString (Text.quoted part))]
  | noMultiplier unit => optionalDetail "from_unit" unit
  | between source target _ =>
    optionalDetail "from_unit" (source.getD "") ++ optionalDetail "to_unit" (target.getD "")

/-- The wording without the details. -/
def summary : UnitError → RawText
  | unknown unit => "Unknown unit: '" ++ shown unit ++ "'"
  | unresolved fault part _ => fault.message part
  | noMultiplier unit => "Unit '" ++ unit ++ "' is nonlinear and has no multiplier"
  | between source target cause =>
    "Failed to convert from '" ++ shown source ++ "' to '" ++ shown target ++ "': " ++
      cause.summary ++ detailText cause.details

def message (e : UnitError) : RawText := e.summary ++ detailText e.details

/-- The class of a failure, as summaries count them. -/
def className : UnitError → String
  | unknown _ => "UnknownUnitError"
  | unresolved .unmatchedParenthesis _ _ => "UnmatchedParenthesisError"
  | unresolved .emptyPart _ _ => "EmptySubexpressionError"
  | unresolved _ _ _ => "UnresolvableUnitError"
  | noMultiplier _ | between _ _ _ => "ConversionError"

end UnitError

/-! ### Definitions that are refused -/

/-- Why a unit definition or a registry entry is refused. -/
inductive RegistryError where
  /-- A definition's multiplier is zero or not finite. -/
  | unusableDefinition (multiplier : Scalar)
  /-- An entry's multiplier is zero or not finite. -/
  | unusableMultiplier (symbol : RawText) (multiplier : Double)
  | registeredNonlinear (symbol : RawText)
  | registeredLinear (symbol : RawText)
  /-- The symbol stands for something else already. -/
  | registered (symbol : RawText)
  | repeatedInSeed (symbol : RawText)
  | unknownKind (name : String)
deriving DecidableEq

namespace RegistryError

def message : RegistryError → RawText
  | unusableDefinition multiplier =>
    "Multiplier must be finite and nonzero, got " ++ multiplier.text
  | unusableMultiplier symbol multiplier =>
    "Multiplier for '" ++ symbol ++ "' must be finite and nonzero, got " ++ multiplier.text
  | registeredNonlinear symbol =>
    "Unit '" ++ symbol ++ "' is already registered as a nonlinear unit"
  | registeredLinear symbol => "Unit '" ++ symbol ++ "' is already registered as a linear unit"
  | registered symbol => "Unit '" ++ symbol ++ "' already registered"
  | repeatedInSeed symbol => "Unit '" ++ symbol ++ "' appears more than once in the seed table"
  | unknownKind name => Text.quoted name ++ " is not a valid UnitType"

end RegistryError

/-! ### Values that cannot be shown -/

/-- Why a value cannot be rendered. -/
inductive RenderingError where
  | tooFewDigits (digits : Int)
  | unknownStyle (name : String)
  /-- An SI prefix was to be put before a compound expression. -/
  | compoundUnit (unit : RawText)
  /-- An SI prefix was to be put before a nonlinear unit. -/
  | nonlinearUnit (unit : RawText)
  /-- An angle, with the text of the value that it came from. -/
  | angleNotFinite (value : String)
  /-- A latitude in degrees, with the text of the value that it came from. -/
  | latitudeOutOfRange (degrees : Double) (value : String)
deriving DecidableEq

namespace RenderingError

/-- The text of the value that the failure is about. -/
def subject : RenderingError → RawText
  | tooFewDigits digits => toString digits
  | unknownStyle name => name
  | compoundUnit unit | nonlinearUnit unit => unit
  | angleNotFinite value | latitudeOutOfRange _ value => value

/-- The wording without the details. -/
def summary : RenderingError → RawText
  | tooFewDigits digits => "Significant digits must be at least 1, got " ++ toString digits
  | unknownStyle name =>
    "Unknown format style '" ++ name ++ "', expected one of (" ++
      ", ".intercalate (Style.all.map fun style ↦ Text.quoted style.name) ++ ")"
  | compoundUnit unit => "SI prefixes need a single unit symbol, got '" ++ unit ++ "'"
  | nonlinearUnit unit => "SI prefixes cannot be applied to nonlinear unit '" ++ unit ++ "'"
  | angleNotFinite _ => "Angle must be finite"
  | latitudeOutOfRange degrees _ =>
    "Latitude must lie within ±90°, got " ++ degrees.text ++ "°"

def details (e : RenderingError) : List (String × RawText) := [("value", e.subject)]

def message (e : RenderingError) : RawText := e.summary ++ detailText e.details

end RenderingError

/-! ### Settings that are refused -/

/-- Why settings cannot be loaded or used. -/
inductive SettingsError where
  /-- The file cannot be read, with what the machine says of that. -/
  | unreadable (path cause : RawText)
  /-- The text is no document, with what its reader says of that. -/
  | invalidDocument (path cause : RawText)
  | notAnObject (path : RawText)
  /-- Keys that are no setting, in increasing order. -/
  | unknownKeys (keys : List RawText)
  | notBoolean (name : String)
  | digitsNotPositive
  | extraUnitsNotMapping
  | emptySymbol
  | unusableExtraUnit (symbol : RawText)
  /-- The registry refused an extra unit. -/
  | refusedExtraUnit (symbol : RawText) (cause : RegistryError)
deriving DecidableEq

namespace SettingsError

/-- The wording without the details. -/
def summary : SettingsError → RawText
  | unreadable path cause => "Cannot read configuration file '" ++ path ++ "': " ++ cause
  | invalidDocument path cause => "Invalid JSON in configuration file '" ++ path ++ "': " ++ cause
  | notAnObject path => "Configuration file '" ++ path ++ "' must contain a JSON object"
  | unknownKeys keys => "Unknown configuration keys: " ++ .join ", " keys
  | notBoolean name => "'" ++ name ++ "' must be a boolean"
  | digitsNotPositive => "Significant digits must be a positive integer"
  | extraUnitsNotMapping => "Extra units must be a mapping of symbol to multiplier"
  | emptySymbol => "Invalid unit symbol ''"
  | unusableExtraUnit symbol =>
    "Multiplier for '" ++ symbol ++ "' must be a finite nonzero number"
  | refusedExtraUnit _ cause => cause.message

def details : SettingsError → List (String × RawText)
  | notBoolean name => [("parameter", name)]
  | digitsNotPositive => [("parameter", "significant_digits")]
  | extraUnitsNotMapping | emptySymbol => [("section", "extra_units")]
  | unusableExtraUnit symbol | refusedExtraUnit symbol _ =>
    ("section", "extra_units") :: optionalDetail "parameter" symbol
  | _ => []

def message (e : SettingsError) : RawText := e.summary ++ detailText e.details

end SettingsError

/-! ### Any failure -/

/-- Any failure of the library. The last ones are found where arrays are taken for numbers, and
where files are read and written. -/
inductive Failure where
  | unit (cause : UnitError)
  | registry (cause : RegistryError)
  | number (cause : NumberError)
  | rendering (cause : RenderingError)
  | settings (cause : SettingsError)
  /-- A number was needed where there was an array of more cells or fewer than one. -/
  | notSingle
  /-- It was asked whether an array is zero that has so many cells, not one. -/
  | undecided (cells : Nat)
  /-- Bytes that are not text. -/
  | notText
  /-- A document whose arrays and objects are nested too deeply. -/
  | documentTooDeep
  | fileMissing
  /-- A directory stands where a file is to be written. -/
  | isDirectory
  /-- A file stands where the directory of a file is to be made. -/
  | isFile
  /-- A file stands where a directory further up is to be made. -/
  | notADirectory
  /-- A file was to be named by something that is no text. -/
  | notAPath
  /-- A file was to be named by a text with a zero character. -/
  | zeroInPath
  /-- A file was to be named by a text that is too long. -/
  | pathTooLong
  /-- A text with half a surrogate pair was to be written. -/
  | unwritableText
deriving DecidableEq

namespace Failure

/-- The wording, for the causes that have one. -/
def message? : Failure → Option RawText
  | unit cause => some cause.message
  | registry cause => some cause.message
  | number cause => cause.message?.map .ofString
  | rendering cause => some cause.message
  | settings cause => some cause.message
  | undecided 0 =>
    some ("The truth value of an empty array is ambiguous. " ++
      "Use `array.size > 0` to check that an array is not empty.")
  | undecided _ =>
    some ("The truth value of an array with more than one element is ambiguous. " ++
      "Use a.any() or a.all()")
  | zeroInPath => some "embedded null byte"
  | notSingle | notText | documentTooDeep | fileMissing | isDirectory | isFile | notADirectory
  | notAPath | pathTooLong | unwritableText => none

/-- The library's own failures, which a command reports by their message; the others are refusals of
plain arguments and of the machine. -/
def ownMessage? : Failure → Option RawText
  | unit cause => some cause.message
  | rendering cause => some cause.message
  | settings cause => some cause.message
  | _ => none

/-- The details of the failures that carry some. A refused definition or number carries none, not
even an empty list. -/
def details? : Failure → Option (List (String × RawText))
  | unit cause => some cause.details
  | rendering cause => some cause.details
  | settings cause => some cause.details
  | _ => none

/-- The class of a failure, under which it is reported and counted. -/
def className : Failure → String
  | unit cause => cause.className
  | rendering _ => "FormattingError"
  | settings _ => "ConfigurationError"
  | registry _ => "ValueError"
  | number .overflow => "OverflowError"
  | number .divisionByZero => "ZeroDivisionError"
  | number _ => "ValueError"
  | notSingle => "TypeError"
  | undecided _ => "ValueError"
  | notText => "UnicodeDecodeError"
  | documentTooDeep => "RecursionError"
  | fileMissing => "FileNotFoundError"
  | isDirectory => "IsADirectoryError"
  | isFile => "FileExistsError"
  | notADirectory => "NotADirectoryError"
  | notAPath => "TypeError"
  | zeroInPath => "ValueError"
  | pathTooLong => "OSError"
  | unwritableText => "UnicodeEncodeError"

/-! ### Summaries -/

/-- A failure of arithmetic, a number too large or a division by zero, is no refusal of what was
asked; it cannot be collected with others. -/
def isArithmetic : Failure → Bool
  | number .overflow | number .divisionByZero => true
  | _ => false

/-- Adds one to the count of a class. -/
def countClass (counts : List (String × Nat)) (name : String) : List (String × Nat) :=
  match counts with
  | [] => [(name, 1)]
  | (key, n) :: rest =>
    if key = name then (key, n + 1) :: rest else (key, n) :: countClass rest name

/-- How many failures of each class there are, classes in order of first occurrence. -/
def classCounts (failures : List Failure) : List (String × Nat) :=
  (failures.map className).foldl countClass []

end Failure

end Metrology
