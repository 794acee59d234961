import Metrology.Document
import Metrology.Text.Literal
import Metrology.Text.Quoted

/-!
# Writing documents

JSON with one element or member a line, each level two spaces further in. Empty arrays and objects
stand on one line. In texts only the quote, the backslash and the control characters below the space
are escaped. Half a surrogate pair cannot be written, nor a whole number of more than `maxDigits`
digits; `Document.writeError?` is the first of these from the left.
-/

namespace Metrology

namespace Document

/-- One character within a text. -/
def writeChar (c : Char) : List Char :=
  match c with
  | '"' => ['\\', '"']
  | '\\' => ['\\', '\\']
  | '\n' => ['\\', 'n']
  | '\r' => ['\\', 'r']
  | '\t' => ['\\', 't']
  | c =>
    if c.toNat = 8 then ['\\', 'b']
    else if c.toNat = 12 then ['\\', 'f']
    else if c.toNat < 0x20 then '\\' :: 'u' :: Text.hexDigits 4 c.toNat
    else [c]

/-- A text with its quotes. -/
def writeText (text : RawText) : List Char :=
  '"' :: text.shown.toList.flatMap writeChar ++ ['"']

/-- A number; the special doubles are words. -/
def writeNumber : Scalar → List Char
  | .double .nan => "NaN".toList
  | .double (.infinite false) => "Infinity".toList
  | .double (.infinite true) => "-Infinity".toList
  | value => value.text.toList

/-- A new line at a level. -/
def newLine (level : Nat) : List Char := '\n' :: List.replicate (2 * level) ' '

mutual

/-- A value whose first line has begun at a level. -/
def writeValue (level : Nat) : Document → List Char
  | null => "null".toList
  | bool value => if value then "true".toList else "false".toList
  | number value => writeNumber value
  | text value => writeText value
  | array [] => ['[', ']']
  | array (element :: elements) =>
    '[' :: newLine (level + 1) ++ writeValue (level + 1) element ++
      writeElements (level + 1) elements ++ newLine level ++ [']']
  | object [] => ['\x7b', '\x7d']
  | object ((key, value) :: members) =>
    '\x7b' :: newLine (level + 1) ++ writeText key ++ [':', ' '] ++ writeValue (level + 1) value ++
      writeMembers (level + 1) members ++ newLine level ++ ['\x7d']

/-- Further elements, each after a comma. -/
def writeElements (level : Nat) : List Document → List Char
  | [] => []
  | element :: elements =>
    ',' :: newLine level ++ writeValue level element ++ writeElements level elements

/-- Further members, each after a comma. -/
def writeMembers (level : Nat) : List (RawText × Document) → List Char
  | [] => []
  | (key, value) :: members =>
    ',' :: newLine level ++ writeText key ++ [':', ' '] ++ writeValue level value ++
      writeMembers level members

end

/-! ### What cannot be written -/

/-- Why a document is not written. -/
inductive WriteError where
  /-- A text has half a surrogate pair. -/
  | unwritableText
  /-- A whole number has too many digits. -/
  | tooManyDigits
deriving DecidableEq, Repr

/-- Whether a text can be written. -/
def textError? (text : RawText) : Option WriteError :=
  if text.isWritable then none else some .unwritableText

/-- Whether a number can be written. -/
def numberError? : Scalar → Option WriteError
  | .int n => if n.natAbs < tenTo Text.maxDigits then none else some .tooManyDigits
  | .double _ => none

mutual

/-- The first in a value that cannot be written. -/
def writeError? : Document → Option WriteError
  | number value => numberError? value
  | text value => textError? value
  | array elements => elementsError? elements
  | object members => membersError? members
  | _ => none

/-- The first in some elements that cannot be written. -/
def elementsError? : List Document → Option WriteError
  | [] => none
  | element :: elements => element.writeError?.or (elementsError? elements)

/-- The first in some members that cannot be written, a key coming before its value. -/
def membersError? : List (RawText × Document) → Option WriteError
  | [] => none
  | (key, value) :: members =>
    ((textError? key).or value.writeError?).or (membersError? members)

end

/-- The text of a document, if it can be written. -/
def write (d : Document) : Except WriteError String :=
  match d.writeError? with
  | none => .ok (String.ofList (writeValue 0 d))
  | some e => .error e

end Document

end Metrology
