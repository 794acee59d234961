import Metrology.Double.Places
import Metrology.Text.Blank

/-!
# Numerals

Two ways to write a number. A **literal** is plain: an optional sign, digits with an optional point
and at least one digit, an optional exponent, all in the ten common digits and with nothing around
it. A **typed numeral** is what a person may enter: blanks around it, digits of any script, single
underscores between digits, and the names of infinity and not-a-number.
-/

namespace Metrology.Text

/-! ### Literals -/

/-- One of the ten common digits. -/
def isDigit (c : Char) : Bool := '0' ≤ c && c ≤ '9'

/-- The number that digits denote, most significant first. -/
def digitsValue (digits : List Char) : Nat :=
  digits.foldl (fun n c ↦ 10 * n + (c.toNat - '0'.toNat)) 0

/-- An optional sign, and whether it is a minus. -/
def splitSign : List Char → Bool × List Char
  | '-' :: rest => (true, rest)
  | '+' :: rest => (false, rest)
  | cs => (false, cs)

/-- A nonempty run of digits and nothing else. -/
def wholeNumber? (cs : List Char) : Option Nat :=
  if cs.isEmpty || !cs.all isDigit then none else some (digitsValue cs)

/-- A whole number with an optional sign and nothing else. -/
def signedNumber? (cs : List Char) : Option Int :=
  let (negative, digits) := splitSign cs
  (wholeNumber? digits).map fun n ↦ if negative then -(n : Int) else n

/-- The exponent that the rest of a literal gives: none, or one after a mark. -/
def exponent? : List Char → Option Int
  | [] => some 0
  | mark :: rest => if mark = 'e' ∨ mark = 'E' then signedNumber? rest else none

/-- A literal: the number `digits * 10 ^ exponent` with a sign. -/
structure Literal where
  negative : Bool
  digits : Nat
  exponent : Int
deriving DecidableEq, Repr

namespace Literal

/-- The fraction after a point, and what follows. Without a point there is no fraction. -/
def splitFraction : List Char → List Char × List Char
  | '.' :: rest => rest.span isDigit
  | cs => ([], cs)

/-- Reads a literal, if the whole text is one. -/
def read? (cs : List Char) : Option Literal :=
  let (negative, unsigned) := splitSign cs
  let (whole, afterWhole) := unsigned.span isDigit
  let (fraction, afterFraction) := splitFraction afterWhole
  if whole.isEmpty && fraction.isEmpty then none
  else (exponent? afterFraction).map fun exponent ↦
    ⟨negative, digitsValue (whole ++ fraction), exponent - fraction.length⟩

/-- The nearest double. -/
def toDouble (l : Literal) : Double := Double.ofDecimal l.negative l.digits l.exponent

end Literal

/-! ### Typed numerals -/

/-- Drops the underscores of a numeral. Each must stand between two digits. -/
def dropUnderscores? (afterDigit : Bool) : List Char → Option (List Char)
  | [] => some []
  | '_' :: c :: rest =>
    if afterDigit && isDigit c then (dropUnderscores? true rest).map (c :: ·) else none
  | c :: rest => if c = '_' then none else (dropUnderscores? (isDigit c) rest).map (c :: ·)

/-- A typed numeral in plain characters: blanks around it dropped, digits of other scripts replaced
by the common ones, underscores removed. -/
def plainNumeral? (text : String) : Option (List Char) :=
  dropUnderscores? false <| (trimBlanks text.toList).map fun c ↦
    match digitValue? c with
    | some n => Char.ofNat ('0'.toNat + n)
    | none => c

/-- The names of the special values, in lower case. -/
def specialValue? (negative : Bool) (name : String) : Option Double :=
  if name = "inf" ∨ name = "infinity" then some (.infinite negative)
  else if name = "nan" then some .nan
  else none

/-- The double a typed numeral denotes. -/
def readDouble? (text : String) : Option Double := do
  let cs ← plainNumeral? text
  match Literal.read? cs with
  | some literal => some literal.toDouble
  | none =>
    let (negative, name) := splitSign cs
    specialValue? negative (String.ofList (name.map Char.toLower))

/-- The whole number a typed numeral denotes, unless it has too many digits, the zeros before it
included. -/
def readInt? (text : String) : Option Int := do
  let cs ← plainNumeral? text
  if maxDigits < (splitSign cs).2.length then none else signedNumber? cs

end Metrology.Text
