import Metrology.Rendering.Cell
import Metrology.Rendering.Quantity

/-!
# Latitudes and longitudes

Angles as degrees with a hemisphere letter, either as degrees, minutes and seconds or as decimal
degrees. An angle arrives in internal units, or in a unit that is given with it.

## Rounding

In degrees, minutes and seconds the whole angle is rounded once, to steps of the last place of the
seconds, and the parts are cut from that whole number; so sixty seconds never show. A longitude is
brought into its range before it is rounded.
-/

namespace Metrology

namespace Rendering

/-! ### Degrees, minutes and seconds -/

/-- The places of the seconds, and of decimal degrees, unless asked for others. -/
def defaultSecondsPlaces : Int := 1

def defaultDegreesPlaces : Int := 4

/-- The magnitude of an angle in degrees, in seconds. -/
def secondsOf : Scalar → Scalar
  | .int degrees => .int (degrees.natAbs * 3600)
  | .double degrees => .double (degrees.abs * 3600)

/-- A number of seconds in steps of a power of ten, rounded to a whole number. The product of whole
numbers is exact, any other is a product of doubles. -/
def steps (seconds : Scalar) (places : Int) : Except NumberError Int :=
  if places < 0 then do
    ((← seconds.toDouble) * Double.tenPow places).roundToInt
  else
    match seconds with
    | .int n => .ok (n * tenTo places.toNat)
    | .double x =>
      match Double.ofDecimal false 1 places with
      | .infinite _ => .error .overflow
      | scale => (x * scale).roundToInt

/-- The parts of an angle of a whole number of steps, `scale` of which make a second. -/
structure SexagesimalParts where
  degrees : Int
  minutes : Int
  seconds : Int
deriving DecidableEq, Repr

/-- Cuts the degrees off first, then the minutes. -/
def sexagesimalParts (total scale : Int) : SexagesimalParts :=
  let rest := total.fmod (3600 * scale)
  ⟨total.fdiv (3600 * scale), rest.fdiv (60 * scale), rest.fmod (60 * scale)⟩

/-- The width of the field of the seconds. -/
def secondsWidth (places : Int) : Int := if places = 0 then 2 else 3 + places

/-- An angle in degrees, of either sign, as degrees, minutes and seconds without a sign. Whole
degrees may have too many digits to be written. -/
def sexagesimal (degrees : Scalar) (places : Int) : Except NumberError String := do
  let total ← steps (secondsOf degrees) places
  if places < 0 then
    if (3600 * Double.tenPow places).isZero then .error .divisionByZero
    else .error (.negativePlaces (some (secondsWidth places)) places)
  else
    let scale := tenTo places.toNat
    let parts := sexagesimalParts total scale
    let seconds := Double.ofQuotient false parts.seconds.natAbs scale
    let numeral ← seconds.fixed? places (some (secondsWidth places))
    let whole ← Text.wholeNumber parts.degrees
    .ok (whole ++ "°" ++
      Double.padLeft 2 '0' (toString parts.minutes) ++ "'" ++ numeral ++ "\"")

/-- A value in degrees as degrees, minutes and seconds. A cell on its own is rounded to a whole
number of steps as a double is; an array with axes has steps, but no whole number of them. -/
def sexagesimalOf (value : Value) (places : Int) : Except Failure String :=
  match value with
  | .number x => arithmetic (sexagesimal x places)
  | .cell x | .array (.cell x) => arithmetic (sexagesimal (.double x) places)
  | .array (.row _) =>
    if (Double.ofDecimal false 1 places).isFinite then .error .notSingle
    else .error (.number .overflow)

/-! ### Hemispheres -/

/-- A rendering of angles: decimal degrees or not, and how many places, if that is said. -/
structure AngleFormat where
  decimal : Bool := false
  places : Option Int := none
deriving DecidableEq, Repr

/-- Degrees with the letter of their hemisphere. -/
def withHemisphere (format : AngleFormat) (positive negative : String) (degrees : Double) :
    Except NumberError String := do
  let hemisphere := if Double.le 0 degrees then positive else negative
  if format.decimal then
    let numeral ← degrees.abs.fixed? (format.places.getD defaultDegreesPlaces) none
    .ok (numeral ++ "°" ++ hemisphere)
  else
    let numeral ← sexagesimal (.double degrees) (format.places.getD defaultSecondsPlaces)
    .ok (numeral ++ hemisphere)

/-- An angle in degrees, which must be finite. Without a unit, or with the empty one, the angle is
in internal units. -/
def degreesOf (c : Converter) (value : Value) (unit : Option RawText) :
    Except Failure Double × Converter :=
  match c.toInternal {} value unit with
  | (.error e, c) => (.error e, c)
  | (.ok internal, c) =>
    match external c internal "deg" with
    | (.error e, c) => (.error e, c)
    | (.ok degrees, c) =>
      if degrees.isFinite then (.ok degrees, c)
      else (.error (.rendering (.angleNotFinite (shownValue value))), c)

/-- The largest latitude that is accepted, in degrees. -/
def maxLatitude : Double := 90 + 1e-9

/-- A latitude that has been brought into degrees. -/
def latitudeText (format : AngleFormat) (value : Value) (degrees : Double) :
    Except Failure String :=
  if maxLatitude.lt degrees.abs then
    .error (.rendering (.latitudeOutOfRange degrees (shownValue value)))
  else arithmetic (withHemisphere format "N" "S" degrees)

/-- Degrees brought into the range above -180 and up to 180. -/
def wrapLongitude (degrees : Double) : Double :=
  let wrapped := (degrees + 180).floorMod 360 - 180
  if wrapped.eqv (-180) then 180 else wrapped

/-- A longitude that has been brought into degrees. -/
def longitudeText (format : AngleFormat) (degrees : Double) : Except Failure String :=
  arithmetic (withHemisphere format "E" "W" (wrapLongitude degrees))

/-! ### Renderings -/

/-- A latitude, such as `52°31'12.0"N`. -/
def latitude (c : Converter) (format : AngleFormat) (value : Value) (unit : Option RawText) :
    Except Failure String × Converter :=
  match degreesOf c value unit with
  | (.ok degrees, c) => (latitudeText format value degrees, c)
  | (.error e, c) => (.error e, c)

/-- A longitude, such as `13°24'18.0"E`. -/
def longitude (c : Converter) (format : AngleFormat) (value : Value) (unit : Option RawText) :
    Except Failure String × Converter :=
  match degreesOf c value unit with
  | (.ok degrees, c) => (longitudeText format degrees, c)
  | (.error e, c) => (.error e, c)

/-- A latitude and a longitude, with a space between. -/
def position (c : Converter) (format : AngleFormat) (lat lon : Value) (unit : Option RawText) :
    Except Failure String × Converter :=
  match latitude c format lat unit with
  | (.error e, c) => (.error e, c)
  | (.ok north, c) =>
    match longitude c format lon unit with
    | (.error e, c) => (.error e, c)
    | (.ok east, c) => (.ok (north ++ " " ++ east), c)

end Rendering

end Metrology
