import Metrology.Document
import Metrology.Text.Front
import Metrology.Text.Literal

/-!
# Reading documents

JSON with the special numbers `NaN`, `Infinity` and `-Infinity`. A number without fraction and
exponent is a whole number of up to `maxDigits` digits; any other is the nearest double. Of members
with one key the last counts. Control characters in texts, a byte-order mark, and anything after the
value are errors.

Values are read from a list of characters, each function returning what it leaves. Arrays and
objects may be nested `maxNesting` levels deep. The first error from the left is the error of the
whole.
-/

namespace Metrology

namespace Document

/-- Why a text is not read. -/
inductive ReadError where
  | malformed
  | nestedTooDeeply
  /-- A whole number has too many digits. -/
  | tooManyDigits (count : Nat)
deriving DecidableEq, Repr

/-- Blanks between tokens. -/
def isJsonBlank (c : Char) : Bool := c == ' ' || c == '\t' || c == '\n' || c == '\r'

def skipBlanks (cs : List Char) : List Char := cs.dropWhile isJsonBlank

/-! ### Texts -/

/-- The value of a hexadecimal digit of either case. -/
def hexValue? (c : Char) : Option Nat :=
  if '0' ≤ c && c ≤ '9' then some (c.toNat - '0'.toNat)
  else if 'a' ≤ c && c ≤ 'f' then some (c.toNat - 'a'.toNat + 10)
  else if 'A' ≤ c && c ≤ 'F' then some (c.toNat - 'A'.toNat + 10)
  else none

/-- The value of four hexadecimal digits. -/
def hexUnit? (a b c d : Char) : Option Nat := do
  return (((← hexValue? a) * 16 + (← hexValue? b)) * 16 + (← hexValue? c)) * 16 + (← hexValue? d)

/-- What a character stands for after a backslash, other than `u`. -/
def escapeValue? : Char → Option Nat
  | '"' => some '"'.toNat
  | '\\' => some '\\'.toNat
  | '/' => some '/'.toNat
  | 'b' => some 8
  | 'f' => some 12
  | 'n' => some 10
  | 'r' => some 13
  | 't' => some 9
  | _ => none

/-- The code units of a text up to its closing quote. -/
def readUnits : List Char → Option (List Nat × List Char)
  | [] => none
  | '"' :: rest => some ([], rest)
  | '\\' :: 'u' :: a :: b :: c :: d :: rest => do
    let unit ← hexUnit? a b c d
    let (units, rest) ← readUnits rest
    return (unit :: units, rest)
  | '\\' :: c :: rest => do
    let unit ← escapeValue? c
    let (units, rest) ← readUnits rest
    return (unit :: units, rest)
  | c :: rest =>
    if c.toNat < 0x20 || c = '\\' then none
    else do
      let (units, rest) ← readUnits rest
      return (c.toNat :: units, rest)

def isHighSurrogate (unit : Nat) : Bool := 0xd800 ≤ unit && unit < 0xdc00

def isLowSurrogate (unit : Nat) : Bool := 0xdc00 ≤ unit && unit < 0xe000

/-- The code point of a code unit. -/
def pointOfUnit (unit : Nat) : CodePoint :=
  if h : 0xd800 ≤ unit ∧ unit < 0xe000 then .half unit h else .char (Char.ofNat unit)

/-- The code points of code units, a high surrogate and a low one making one character. -/
def joinSurrogates : List Nat → List CodePoint
  | [] => []
  | [unit] => [pointOfUnit unit]
  | high :: low :: rest =>
    if isHighSurrogate high && isLowSurrogate low then
      .char (Char.ofNat (0x10000 + (high - 0xd800) * 0x400 + (low - 0xdc00))) :: joinSurrogates rest
    else pointOfUnit high :: joinSurrogates (low :: rest)

/-- A text after its opening quote. -/
def readText (cs : List Char) : Except ReadError (RawText × List Char) :=
  match readUnits cs with
  | some (units, rest) => .ok (⟨joinSurrogates units⟩, rest)
  | none => .error .malformed

/-! ### Numbers -/

/-- The digits after a point. A point that no digit follows does not belong to the number. -/
def readFraction : List Char → List Char × List Char
  | '.' :: c :: rest =>
    if Text.isDigit c then (c :: rest).span Text.isDigit else ([], '.' :: c :: rest)
  | cs => ([], cs)

/-- Digits with an optional sign. -/
def readSignedDigits (cs : List Char) : Option (Int × List Char) :=
  let (negative, unsigned) := Text.splitSign cs
  let (digits, rest) := unsigned.span Text.isDigit
  if digits.isEmpty then none
  else
    let n : Int := Text.digitsValue digits
    some (if negative then -n else n, rest)

/-- The exponent after a mark. A mark that no digits follow does not belong to the number. -/
def readExponent : List Char → Option Int × List Char
  | mark :: rest =>
    if mark = 'e' ∨ mark = 'E' then
      match readSignedDigits rest with
      | some (exponent, rest) => (some exponent, rest)
      | none => (none, mark :: rest)
    else (none, mark :: rest)
  | [] => (none, [])

/-- A number from its sign and whole digits and what follows them. -/
def finishNumber (negative : Bool) (whole rest : List Char) :
    Except ReadError (Scalar × List Char) :=
  let (fraction, rest) := readFraction rest
  let (exponent, rest) := readExponent rest
  if fraction.isEmpty && exponent.isNone then
    if Text.maxDigits < whole.length then .error (.tooManyDigits whole.length)
    else
      let n : Int := Text.digitsValue whole
      .ok (.int (if negative then -n else n), rest)
  else
    .ok (.double (Double.ofDecimal negative (Text.digitsValue (whole ++ fraction))
      (exponent.getD 0 - fraction.length)), rest)

/-- A number without sign. A zero is not followed by other digits. -/
def readUnsigned (negative : Bool) : List Char → Except ReadError (Scalar × List Char)
  | '0' :: rest => finishNumber negative ['0'] rest
  | cs =>
    let (digits, rest) := cs.span Text.isDigit
    if digits.isEmpty then .error .malformed else finishNumber negative digits rest

def readNumber : List Char → Except ReadError (Scalar × List Char)
  | '-' :: rest => readUnsigned true rest
  | cs => readUnsigned false cs

/-! ### Values -/

/-- The values that are written as a word. -/
def words : List (String × Document) :=
  [("null", .null), ("true", .bool true), ("false", .bool false), ("NaN", .number (.double .nan)),
   ("Infinity", .number (.double (.infinite false))),
   ("-Infinity", .number (.double (.infinite true)))]

/-- A value that is written as a word. -/
def readWord? (cs : List Char) : Option (Document × List Char) :=
  words.findSome? fun (word, value) ↦ (Text.after? word.toList cs).map fun rest ↦ (value, rest)

/-- A value that is neither text, array nor object. -/
def readSimple (cs : List Char) : Except ReadError (Document × List Char) :=
  match readWord? cs with
  | some reading => .ok reading
  | none => (readNumber cs).map fun (value, rest) ↦ (.number value, rest)

mutual

/-- A value at the front of a text, within a number of steps and a number of nested levels. -/
def readValue : Nat → Nat → List Char → Except ReadError (Document × List Char)
  | 0, _, _ => .error .malformed
  | _ + 1, _, '"' :: rest => (readText rest).map fun (value, rest) ↦ (.text value, rest)
  | _ + 1, 0, '[' :: _ => .error .nestedTooDeeply
  | _ + 1, 0, '{' :: _ => .error .nestedTooDeeply
  | steps + 1, levels + 1, '[' :: rest =>
    match skipBlanks rest with
    | ']' :: rest => .ok (.array [], rest)
    | cs => (readElements steps levels cs).map fun (elements, rest) ↦ (.array elements, rest)
  | steps + 1, levels + 1, '{' :: rest =>
    match skipBlanks rest with
    | '}' :: rest => .ok (.object [], rest)
    | cs =>
      (readMembers steps levels cs).map fun (members, rest) ↦ (.object (lastMembers members), rest)
  | _ + 1, _, cs => readSimple cs

/-- The elements of an array from the first one on, with the closing bracket. -/
def readElements : Nat → Nat → List Char → Except ReadError (List Document × List Char)
  | 0, _, _ => .error .malformed
  | steps + 1, levels, cs => do
    let (element, rest) ← readValue steps levels cs
    match skipBlanks rest with
    | ']' :: rest => .ok ([element], rest)
    | ',' :: rest =>
      let (elements, rest) ← readElements steps levels (skipBlanks rest)
      .ok (element :: elements, rest)
    | _ => .error .malformed

/-- The members of an object from the first one on, with the closing brace. -/
def readMembers :
    Nat → Nat → List Char → Except ReadError (List (RawText × Document) × List Char)
  | steps + 1, levels, '"' :: rest => do
    let (key, rest) ← readText rest
    match skipBlanks rest with
    | ':' :: rest =>
      let (value, rest) ← readValue steps levels (skipBlanks rest)
      match skipBlanks rest with
      | '}' :: rest => .ok ([(key, value)], rest)
      | ',' :: rest =>
        let (members, rest) ← readMembers steps levels (skipBlanks rest)
        .ok ((key, value) :: members, rest)
      | _ => .error .malformed
    | _ => .error .malformed
  | _, _, _ => .error .malformed

end

/-- How deep arrays and objects may be nested. -/
def maxNesting : Nat := 980

/-- Reads a text that is one value, with blanks around it at most. Each character takes two steps at
most, one as an element and one as a value. -/
def read (text : String) : Except ReadError Document := do
  let cs := text.toList
  let (value, rest) ← readValue (2 * cs.length + 2) maxNesting (skipBlanks cs)
  if (skipBlanks rest).isEmpty then .ok value else .error .malformed

end Document

end Metrology
