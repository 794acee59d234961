import Metrology.Double.Logarithm
import Metrology.Failure
import Metrology.Text.Blank

/-!
# Numbers as text

Rounding to significant digits, and four renderings of a number: plain, scientific, with an SI
prefix, and with a named power of a thousand.

Every rendering rounds first, and takes its exponent from the rounded number. The exponent is the
floor of a logarithm computed in doubles, so next to a power of ten it need not be the exponent of
the leading digit. Scaling by a power of ten is a division of doubles, which rounds again.
-/

namespace Metrology

namespace Rendering

/-- The significant digits of a number unless asked for others. -/
def defaultDigits : Int := 3

/-- Lifts a failure of arithmetic. -/
def arithmetic {α : Type} (result : Except NumberError α) : Except Failure α :=
  result.mapError Failure.number

/-! ### Significant digits -/

/-- The refusal of fewer digits than one. It tells how many were asked for, and that number may have
too many digits itself. -/
def tooFewDigits (digits : Int) : Failure :=
  match Text.wholeNumber digits with
  | .ok _ => .rendering (.tooFewDigits digits)
  | .error e => .number e

/-- A double rounded to significant digits, at least one. Zero, the infinities and not-a-number
stay as they are. -/
def roundDouble (x : Double) (digits : Int) : Except NumberError Double :=
  if x.isZero || !x.isFinite then .ok x
  else do
    let exponent ← x.decimalExponent
    x.roundPlaces (digits - 1 - exponent)

/-- A number rounded to significant digits. -/
def roundSignificant (x : Scalar) (digits : Int) : Except Failure Double := do
  if digits < 1 then .error (tooFewDigits digits)
  else arithmetic (do roundDouble (← x.toDouble) digits)

/-- Renders a value with a number of significant digits, which is looked at first; then the value
must stand for a single number. -/
def ofSingle {α : Type} (value : Value) (digits : Int) (render : Scalar → Except Failure α) :
    Except Failure α :=
  if digits < 1 then .error (tooFewDigits digits)
  else
    match value.single? with
    | some x => render x
    | none => .error .notSingle

/-- The decimal exponent of a number of either kind. -/
def decimalExponent : Scalar → Except NumberError Int
  | .int n => Double.decimalExponentOfInt n
  | .double x => x.decimalExponent

/-- The decimal exponent of a value. It must be decided first whether the value is zero, which an
array decides only by a single cell. -/
def exponentOf (value : Value) : Except Failure Int :=
  match value, value.single? with
  | _, some x => arithmetic (decimalExponent x)
  | .array grid, none => .error (.undecided grid.cells.length)
  | _, none => .error .notSingle

/-! ### Plain -/

/-- A rounded double with as many places as its significant digits need. -/
def plainRounded (rounded : Double) (digits : Int) : Except NumberError String :=
  if !rounded.isFinite then .ok rounded.text
  else if rounded.isZero then .ok "0"
  else do
    let exponent ← rounded.decimalExponent
    rounded.trimmed? (max 0 (digits - 1 - exponent))

/-- All places, such as `1230` and `0.00123`. -/
def plain (x : Scalar) (digits : Int) : Except Failure String := do
  let rounded ← roundSignificant x digits
  arithmetic (plainRounded rounded digits)

/-! ### Scientific -/

/-- A digit or a minus sign in superscript. -/
def superscript (c : Char) : Char :=
  match c with
  | '0' => '⁰'
  | '1' => '¹'
  | '2' => '²'
  | '3' => '³'
  | '4' => '⁴'
  | '5' => '⁵'
  | '6' => '⁶'
  | '7' => '⁷'
  | '8' => '⁸'
  | '9' => '⁹'
  | '-' => '⁻'
  | c => c

/-- The power of ten after a mantissa: none for the exponent zero. -/
def powerText (exponent : Int) (unicode : Bool) : String :=
  if exponent = 0 then ""
  else if unicode then
    "×10" ++ String.ofList ((toString exponent).toList.map superscript)
  else "e" ++ toString exponent

/-- A double over a power of ten. -/
def scaleDown (x : Double) (exponent : Int) : Except NumberError Double :=
  if (Double.tenPow exponent).isZero then .error .divisionByZero
  else .ok (x / Double.tenPow exponent)

/-- A mantissa that has rounded up to ten is one of the next power. -/
def carry (mantissa : Double) (exponent : Int) : Double × Int :=
  if Double.le 10 mantissa.abs then (mantissa / 10, exponent + 1) else (mantissa, exponent)

/-- A rounded double as a mantissa and a power of ten. -/
def scientificRounded (rounded : Double) (digits : Int) (unicode : Bool) :
    Except NumberError String :=
  if !rounded.isFinite then .ok rounded.text
  else if rounded.isZero then .ok "0"
  else do
    let exponent ← rounded.decimalExponent
    let mantissa ← (← scaleDown rounded exponent).roundPlaces (digits - 1)
    let (mantissa, exponent) := carry mantissa exponent
    let numeral ← mantissa.trimmed? (digits - 1)
    .ok (numeral ++ powerText exponent unicode)

/-- A mantissa and a power of ten, such as `1.23e24` and `1.23×10²⁴`. -/
def scientific (x : Scalar) (digits : Int) (unicode : Bool) : Except Failure String := do
  let rounded ← roundSignificant x digits
  arithmetic (scientificRounded rounded digits unicode)

/-! ### Powers of a thousand -/

/-- The greatest multiple of three that is not above a decimal exponent. -/
def thousandsExponent (exponent : Int) : Int := 3 * exponent.fdiv 3

/-- The SI prefixes by exponent. -/
def siPrefixes : List (Int × String) :=
  [(-24, "y"), (-21, "z"), (-18, "a"), (-15, "f"), (-12, "p"), (-9, "n"), (-6, "µ"), (-3, "m"),
   (0, ""), (3, "k"), (6, "M"), (9, "G"), (12, "T"), (15, "P"), (18, "E"), (21, "Z"), (24, "Y")]

/-- The sign for micro in plain text. -/
def plainMicro : String := "u"

/-- The exponent of the SI prefix for a decimal exponent, the outermost ones for all beyond. -/
def siExponent (exponent : Int) : Int := max (-24) (min 24 (thousandsExponent exponent))

/-- The SI prefix at an exponent. -/
def siPrefixOf (exponent : Int) (unicode : Bool) : String :=
  let sign := (siPrefixes.lookup exponent).getD ""
  if sign = "µ" && !unicode then plainMicro else sign

/-- A number with an SI prefix before its unit, such as `1.5 km` and `12 µs`. -/
def si (x : Scalar) (unit : RawText) (digits : Int) (unicode : Bool) : Except Failure RawText := do
  let rounded ← roundSignificant x digits
  if !rounded.isFinite then .ok (Text.trimSpace (rounded.text ++ " " ++ unit))
  else
    let exponent := siExponent (← arithmetic rounded.decimalExponent)
    let mantissa ← arithmetic (scaleDown rounded exponent)
    let numeral ← plain (.double mantissa) digits
    let suffix := siPrefixOf exponent unicode ++ unit
    .ok (if suffix.isEmpty then numeral else numeral ++ " " ++ suffix)

/-- The named powers of a thousand by exponent. -/
def thousandNames : List (Int × String) :=
  [(3, "thousand"), (6, "million"), (9, "billion"), (12, "trillion"), (15, "quadrillion"),
   (18, "quintillion"), (21, "sextillion"), (24, "septillion"), (27, "octillion"),
   (30, "nonillion"), (33, "decillion")]

/-- A number with a named power of a thousand, such as `1.5 million`. Below one thousand it is
plain, and beyond the last name scientific. -/
def named (x : Scalar) (digits : Int) : Except Failure String := do
  let rounded ← roundSignificant x digits
  if !rounded.isFinite || Double.lt rounded.abs 1000 then plain (.double rounded) digits
  else
    let exponent := thousandsExponent (← arithmetic rounded.decimalExponent)
    match thousandNames.lookup exponent with
    | none => scientific (.double rounded) digits false
    | some name =>
      let mantissa ← arithmetic (scaleDown rounded exponent)
      let numeral ← plain (.double mantissa) digits
      .ok (numeral ++ " " ++ name)

end Rendering

end Metrology
