import Metrology.Document
import Metrology.Text.Quoted

/-!
# Message templates

A template is a text with fields; a message fills the fields with arguments. A field is a percent
sign, flags, a width, a number of places and a letter; a star stands for a width or a number of
places that is an argument itself. Two percent signs stand for one.

Arguments fill the fields in order, and all must be used. When the only argument is an object with
members, fields can name the member they show by its key, in parentheses after the percent sign; it
does not matter then which members are used.

A template whose fields and arguments do not fit together has no message. Without arguments a text
is its own message, whatever it holds.
-/

namespace Metrology.Text

/-! ### Arguments as text -/

mutual

/-- A value as it is shown inside another one. -/
def reprValue : Document → String
  | .null => "None"
  | .bool value => if value then "True" else "False"
  | .number value => value.text
  | .text value => quoted value
  | .array elements => "[" ++ ", ".intercalate (reprElements elements) ++ "]"
  | .object members => "\x7b" ++ ", ".intercalate (reprMembers members) ++ "\x7d"

def reprElements : List Document → List String
  | [] => []
  | element :: elements => reprValue element :: reprElements elements

def reprMembers : List (RawText × Document) → List String
  | [] => []
  | (key, value) :: members => (quoted key ++ ": " ++ reprValue value) :: reprMembers members

end

/-- A value as it is shown on its own. -/
def showValue : Document → RawText
  | .text value => value
  | value => .ofString (reprValue value)

/-- A text in ASCII characters, the others by their code points. -/
def asciiOnly (text : String) : String :=
  String.ofList (text.toList.flatMap fun c ↦ if c.toNat < 0x80 then [c] else codeEscape c)

/-! ### Arguments as numbers -/

/-- The whole number of an argument that is one. -/
def wholeArgument? : Document → Option Int
  | .number (.int n) => some n
  | .bool value => some (if value then 1 else 0)
  | _ => none

/-- The whole number of an argument; a double loses its fraction. -/
def truncatedArgument? : Document → Option Int
  | .number (.double x) =>
    (x.abs.floor.toOption).map fun n ↦ if x.isNegative then -n else n
  | value => wholeArgument? value

/-- The double of an argument. -/
def doubleArgument? : Document → Option Double
  | .number value => value.toDouble.toOption
  | .bool value => some (if value then 1 else 0)
  | _ => none

/-- The code point of an argument: a text of one, or its number. -/
def pointArgument? : Document → Option CodePoint
  | .text ⟨[point]⟩ => some point
  | value => do
    let n ← wholeArgument? value
    if n < 0 then none else CodePoint.ofNat? n.toNat

/-! ### Layout of a field -/

/-- The flags, the width and the places of a field. -/
structure Field where
  /-- Marks of the base, and a point even without places. -/
  alternate : Bool := false
  /-- Zeros instead of blanks before a number. -/
  zeros : Bool := false
  left : Bool := false
  /-- A blank or a plus sign before a number that is not negative. -/
  space : Bool := false
  plus : Bool := false
  width : Nat := 0
  places : Option Nat := none
deriving DecidableEq, Repr

namespace Field

/-- The longest text that a field is filled up to. -/
def maxLength : Nat := tenTo 9

/-- Fills a text up to the width. -/
def fill (field : Field) (body : RawText) : RawText :=
  let blanks : RawText := ⟨List.replicate (field.width - body.points.length) (.char ' ')⟩
  if field.left then body ++ blanks else blanks ++ body

/-- A text cut to the places. -/
def cut (field : Field) (text : RawText) : RawText :=
  match field.places with
  | some n => ⟨text.points.take n⟩
  | none => text

/-- A number, its sign and mark before it; zeros stand between the two. -/
def fillNumber (field : Field) (negative : Bool) (mark digits : String) : RawText :=
  let sign := if negative then "-" else if field.plus then "+" else if field.space then " " else ""
  let start := sign ++ mark
  if field.zeros && !field.left then
    .ofString (start ++ Double.padLeft (field.width - start.length) '0' digits)
  else field.fill (.ofString (start ++ digits))

/-- A whole number in a base. -/
def whole (field : Field) (base : Nat) (upper : Bool) (mark : String) (n : Int) : RawText :=
  let digits := Nat.toDigits base n.natAbs
  let digits := if upper then digits.map Char.toUpper else digits
  field.fillNumber (n < 0) (if field.alternate then mark else "")
    (Double.padLeft (field.places.getD 0) '0' (String.ofList digits))

/-- The places of a double. -/
def doublePlaces (field : Field) : Nat := field.places.getD 6

/-- The point that ends a number without places, if the field asks for one. -/
def barePoint (field : Field) (places : Nat) : String :=
  if field.alternate && places = 0 then "." else ""

/-- A number of zeros. -/
def zeroDigits (count : Nat) : String := String.ofList (List.replicate count '0')

/-- A magnitude with fixed places, the exact ones and then zeros. -/
def fixedNumeral (rank places : Nat) : String :=
  let exact := min places Double.exactPlaces
  Double.fixedDigits (Double.stepsAtPlaces rank exact) exact ++ zeroDigits (places - exact)

/-- A magnitude with fixed places. -/
def fixed (field : Field) (rank places : Nat) : String :=
  fixedNumeral rank places ++ field.barePoint places

/-- A magnitude as one digit and a number of places, with the exponent of that digit. -/
def leading (rank places : Nat) : Nat × Int :=
  if rank = 0 then (0, 0)
  else
    let exponent := Double.leadingExponent (Double.unitsOfRank rank) Double.one
    let steps := Double.stepsAtPlaces rank (places - exponent)
    if steps = tenTo (places + 1) then (tenTo places, exponent + 1) else (steps, exponent)

/-- The digit and the places of a magnitude, the exact ones and then zeros, with the exponent. -/
def leadingNumeral (rank places : Nat) : String × Int :=
  let exact := min places Double.exactPlaces
  let (steps, exponent) := leading rank exact
  (Double.fixedDigits steps exact ++ zeroDigits (places - exact), exponent)

/-- An exponent after its mark. -/
def exponentText (exponent : Int) : String :=
  (if exponent < 0 then "e-" else "e+") ++ Double.padLeft 2 '0' (toString exponent.natAbs)

/-- A magnitude with an exponent. -/
def exponential (field : Field) (rank places : Nat) : String :=
  let (numeral, exponent) := leadingNumeral rank places
  numeral ++ field.barePoint places ++ exponentText exponent

/-- A numeral without the zeros that end its fraction. -/
def trimFraction (numeral : String) : String :=
  if '.' ∈ numeral.toList then
    let kept := numeral.toList.reverse.dropWhile (· == '0')
    String.ofList (match kept with
      | '.' :: rest => rest.reverse
      | kept => kept.reverse)
  else numeral

/-- The digits of a magnitude that has a number of them. Where zeros at the end are trimmed anyway
no more than the exact ones are needed. -/
def generalDigits (field : Field) : Nat :=
  let digits := max 1 field.doublePlaces
  if field.alternate then digits else min digits Double.exactPlaces

/-- A magnitude with a number of digits, in whichever form is shorter. -/
def general (field : Field) (rank : Nat) : String :=
  let digits := field.generalDigits
  let (numeral, exponent) := leadingNumeral rank (digits - 1)
  let finish (places : Nat) (numeral : String) : String :=
    if field.alternate then numeral ++ field.barePoint places else trimFraction numeral
  if -4 ≤ exponent ∧ exponent < digits then
    let places := (digits - 1 - exponent).toNat
    finish places (fixedNumeral rank places)
  else finish (digits - 1) numeral ++ exponentText exponent

/-- A double, its magnitude shown by a rule. -/
def double (field : Field) (upper : Bool) (magnitude : Nat → String) (x : Double) : RawText :=
  let digits := match x with
    | .finite _ rank => magnitude rank
    | x => x.abs.text
  field.fillNumber x.isNegative "" (if upper then digits.toUpper else digits)

/-- A number of this field is not too long. -/
def holdsPlaces (field : Field) : Bool := field.places.getD 0 ≤ maxLength

/-- An argument as a whole number in a field. -/
def wholeText? (field : Field) (letter : Char) (argument : Document) : Option RawText :=
  match letter with
  | 'd' | 'i' | 'u' => (truncatedArgument? argument).map (field.whole 10 false "")
  | 'o' => (wholeArgument? argument).map (field.whole 8 false "0o")
  | 'x' => (wholeArgument? argument).map (field.whole 16 false "0x")
  | 'X' => (wholeArgument? argument).map (field.whole 16 true "0X")
  | _ => none

/-- An argument as a double in a field. -/
def doubleText? (field : Field) (letter : Char) (argument : Document) : Option RawText := do
  let x ← doubleArgument? argument
  let layOut (magnitude : Nat → String) : RawText := field.double letter.isUpper magnitude x
  match letter with
  | 'f' | 'F' =>
    if field.holdsPlaces then some (layOut (field.fixed · field.doublePlaces)) else none
  | 'e' | 'E' =>
    if field.holdsPlaces then some (layOut (field.exponential · field.doublePlaces)) else none
  | 'g' | 'G' =>
    if field.holdsPlaces || !field.alternate then some (layOut field.general) else none
  | _ => none

/-- An argument in a field with a letter. -/
def text? (field : Field) (letter : Char) (argument : Document) : Option RawText :=
  match letter with
  | 's' => some (field.fill (field.cut (showValue argument)))
  | 'r' => some (field.fill (field.cut (.ofString (reprValue argument))))
  | 'a' => some (field.fill (field.cut (.ofString (asciiOnly (reprValue argument)))))
  | 'c' => (pointArgument? argument).map fun point ↦ field.fill ⟨[point]⟩
  | letter =>
    if letter ∈ ['d', 'i', 'u', 'o', 'x', 'X'] then
      if field.holdsPlaces then field.wholeText? letter argument else none
    else field.doubleText? letter argument

end Field

/-! ### What fills the fields -/

/-- What is there to fill fields with. -/
inductive Supply where
  /-- Arguments that are used in order. -/
  | queue (arguments : List Document)
  /-- The members of an object, and what the next field shows, if that has not been used. -/
  | members (members : List (RawText × Document)) (current : Option Document)

namespace Supply

/-- What some arguments supply. A single object with members is shown as a whole until a member is
named. -/
def ofArguments : List Document → Supply
  | [.object (member :: rest)] =>
    members (member :: rest) (some (.object (member :: rest)))
  | arguments => queue arguments

/-- The next argument, and what is left. -/
def next? : Supply → Option (Document × Supply)
  | queue (argument :: rest) => some (argument, queue rest)
  | queue [] => none
  | members all current => current.map fun value ↦ (value, members all none)

/-- The supply with the member of a key as what comes next. -/
def select? (key : RawText) : Supply → Option Supply
  | queue _ => none
  | members all _ => (all.lookup key).map fun value ↦ members all (some value)

/-- Nothing is left that must be used. -/
def isSpent : Supply → Bool
  | queue arguments => arguments.isEmpty
  | members _ _ => true

end Supply

namespace Field

/-! ### Reading a field -/

/-- A key up to the parenthesis that closes it, which it may hold in pairs. -/
def readKey? : Nat → List Char → Option (List Char × List Char)
  | _, [] => none
  | 0, ')' :: rest => some ([], rest)
  | depth + 1, ')' :: rest =>
    (readKey? depth rest).map fun (key, rest) ↦ (')' :: key, rest)
  | depth, c :: rest =>
    (readKey? (if c = '(' then depth + 1 else depth) rest).map fun (key, rest) ↦ (c :: key, rest)

/-- The supply of a field, after the key that it may begin with. -/
def readSupply? (supply : Supply) : List Char → Option (Supply × List Char)
  | '(' :: rest => do
    let (key, rest) ← readKey? 0 rest
    return (← supply.select? (.ofString (String.ofList key)), rest)
  | template => some (supply, template)

/-- Reads flags. -/
def readFlags (field : Field) : List Char → Field × List Char
  | '#' :: rest => readFlags { field with alternate := true } rest
  | '0' :: rest => readFlags { field with zeros := true } rest
  | '-' :: rest => readFlags { field with left := true } rest
  | ' ' :: rest => readFlags { field with space := true } rest
  | '+' :: rest => readFlags { field with plus := true } rest
  | rest => (field, rest)

/-- A number in a field, zero if there is none: digits, or a star for the next argument. -/
def readSize? : List Char → Supply → Option (Int × List Char × Supply)
  | '*' :: rest, supply => do
    let (argument, supply) ← supply.next?
    return (← wholeArgument? argument, rest, supply)
  | template, supply =>
    let (digits, rest) := template.span Char.isDigit
    some (digits.foldl (fun n c ↦ 10 * n + (c.toNat - '0'.toNat)) 0, rest, supply)

/-- The width, which must be one that a text can have. -/
def readWidth? (template : List Char) (supply : Supply) : Option (Int × List Char × Supply) := do
  let (width, rest, supply) ← readSize? template supply
  if maxLength < width.natAbs then none else return (width, rest, supply)

/-- The places after a point, if there are any. They are a number of 32 bits, and none if it is
negative. -/
def readPlaces? : List Char → Supply → Option (Option Nat × List Char × Supply)
  | '.' :: rest, supply => do
    let (places, rest, supply) ← readSize? rest supply
    if places < -(twoTo 31 : Int) || (Double.maxPlaces : Int) < places then none
    else return (some places.toNat, rest, supply)
  | template, supply => some (none, template, supply)

/-- The letter of a field; a letter for the size of an argument may stand before it. -/
def readLetter? : List Char → Option (Char × List Char)
  | [] => none
  | c :: rest =>
    if c = 'h' ∨ c = 'l' ∨ c = 'L' then
      match rest with
      | [] => none
      | letter :: rest => some (letter, rest)
    else some (c, rest)

/-- A field that stands after a percent sign, filled in; with what is left of the template and of
the supply. -/
def read? (template : List Char) (supply : Supply) :
    Option (RawText × List Char × Supply) := do
  if template.head? = some '%' then return (.ofString "%", template.tail, supply)
  let (supply, template) ← readSupply? supply template
  let (field, template) := readFlags {} template
  let (width, template, supply) ← readWidth? template supply
  let (places, template, supply) ← readPlaces? template supply
  let field := { field with
    width := width.natAbs
    left := field.left || decide (width < 0)
    places }
  let (letter, template) ← readLetter? template
  let (argument, supply) ← supply.next?
  return (← field.text? letter argument, template, supply)

end Field

/-! ### Templates -/

/-- Fills a template within a number of fields. -/
def fillFields : Nat → List Char → Supply → Option RawText
  | fields, template, supply =>
    let (plain, rest) := template.span (· != '%')
    let plain := RawText.ofString (String.ofList plain)
    match rest with
    | [] => if supply.isSpent then some plain else none
    | _ :: rest =>
      match fields with
      | 0 => none
      | fields + 1 => do
        let (text, rest, supply) ← Field.read? rest supply
        return plain ++ text ++ (← fillFields fields rest supply)

/-- The message of a template. No template has more fields than characters. -/
def fillTemplate? (template : String) (arguments : List Document) : Option RawText :=
  if arguments.isEmpty then some (.ofString template)
  else fillFields template.length template.toList (.ofArguments arguments)

end Metrology.Text
