import Metrology.Double.Shortest

/-!
# Decimal places

Rounding a double to a number of decimal places, writing it with a fixed number of places, and
rounding it to a whole number. All three look at the exact value of the double, and a value halfway
between two candidates goes to the even one.
-/

namespace Metrology

/-- The digits that a whole number may have as a text. -/
def Text.maxDigits : Nat := 4300

/-- What can go wrong where a number is turned into another kind of number or into text. -/
inductive NumberError where
  /-- The result lies beyond the largest double, or infinity was to become a whole number. -/
  | overflow
  | divisionByZero
  /-- Not-a-number was to become a whole number. -/
  | notANumber
  /-- A fixed number of places was to be negative, with the field width it was asked in. -/
  | negativePlaces (width : Option Int) (places : Int)
  /-- A fixed number of places was beyond what a text can hold. -/
  | tooManyPlaces (places : Nat)
  /-- A whole number was written with too many digits. -/
  | tooManyDigits (count : Nat)
  /-- A whole number has too many digits to be written. -/
  | unwritableDigits
deriving DecidableEq, Repr

namespace NumberError

/-- The wording where a whole number would be too long a text. -/
def digitLimitMessage : String :=
  "Exceeds the limit (4300 digits) for integer string conversion; " ++
    "use sys.set_int_max_str_digits() to increase the limit"

/-- The wording, for the causes that have one. -/
def message? : NumberError → Option String
  | overflow | divisionByZero => none
  | notANumber => some "cannot convert float NaN to integer"
  | negativePlaces width places =>
    match width with
    | some w =>
      if w < 0 then
        some ("Invalid format specifier '0" ++ toString w ++ "." ++ toString places ++
          "f' for object of type 'float'")
      else some "Format specifier missing precision"
    | none => some "Format specifier missing precision"
  | tooManyPlaces places =>
    if places < twoTo 63 then some "precision too big"
    else if places < tenTo Text.maxDigits then some "Too many decimal digits in format string"
    else some digitLimitMessage
  | tooManyDigits count =>
    some ("Exceeds the limit (4300 digits) for integer string conversion: value has " ++
      toString count ++ " digits; use sys.set_int_max_str_digits() to increase the limit")
  | unwritableDigits => some digitLimitMessage

end NumberError

/-- A whole number as text, unless it has too many digits for one. -/
def Text.wholeNumber (n : Int) : Except NumberError String :=
  if n.natAbs < tenTo Text.maxDigits then .ok (toString n) else .error .unwritableDigits

namespace Double

/-! ### Rounding to places -/

/-- The whole number of steps of `10 ^ (-places)` nearest to the magnitude of a rank. -/
def stepsAtPlaces (rank : Nat) (places : Int) : Nat :=
  if 0 ≤ places then roundHalfEven (unitsOfRank rank * tenTo places.toNat) one
  else roundHalfEven (unitsOfRank rank) (one * tenTo (-places).toNat)

/-- The double nearest to the value rounded to `places` decimal places. Beyond 323 places every
double is already round; below -308 places every double rounds to zero. -/
def roundPlaces (x : Double) (places : Int) : Except NumberError Double :=
  match x with
  | finite negative rank =>
    if 323 < places then .ok x
    else if places < -308 then .ok (signedZero negative)
    else
      match ofDecimal negative (stepsAtPlaces rank places) (-places) with
      | infinite _ => .error .overflow
      | rounded => .ok rounded
  | _ => .ok x

/-! ### Whole numbers -/

/-- A magnitude with its sign, as a whole number. -/
def applySign (negative : Bool) (n : Nat) : Int := if negative then -(n : Int) else n

/-- The nearest whole number. -/
def roundToInt : Double → Except NumberError Int
  | nan => .error .notANumber
  | infinite _ => .error .overflow
  | finite negative rank => .ok (applySign negative (roundHalfEven (unitsOfRank rank) one))

/-- The largest whole number not above. -/
def floor : Double → Except NumberError Int
  | nan => .error .notANumber
  | infinite _ => .error .overflow
  | finite negative rank => .ok (Int.fdiv (signedUnits negative rank) one)

/-! ### Fixed places -/

/-- A count of steps of `10 ^ (-places)` written with exactly that many places. -/
def fixedDigits (steps places : Nat) : String :=
  let whole := toString (steps / tenTo places)
  if places = 0 then whole
  else whole ++ "." ++ padLeft places '0' (toString (steps % tenTo places))

/-- A double with a fixed number of places. -/
def fixed (x : Double) (places : Nat) : String :=
  match x with
  | finite negative rank =>
    (if negative then "-" else "") ++ fixedDigits (stepsAtPlaces rank places) places
  | _ => x.text

/-- The largest number of places that can be asked for. -/
def maxPlaces : Nat := twoTo 31 - 1

/-- A number of places, if it can be asked for. -/
def checkPlaces (places : Int) (width : Option Int) : Except NumberError Nat :=
  if places < 0 then .error (.negativePlaces width places)
  else if maxPlaces < places.toNat then .error (.tooManyPlaces places.toNat)
  else .ok places.toNat

/-- A double with a number of places that is checked first, optionally padded on the left with
zeros to a field width. -/
def fixed? (x : Double) (places : Int) (width : Option Int) : Except NumberError String := do
  let places ← checkPlaces places width
  .ok (padLeft (width.getD 0).toNat '0' (x.fixed places))

/-- A double has only zeros after so many places, counted from its point or its leading digit. -/
def exactPlaces : Nat := 1100

/-- A numeral with a point loses the zeros at its end, and then a point at its end. -/
def trimZeros (numeral : String) : String :=
  if '.' ∈ numeral.toList then
    String.ofList
      (((numeral.toList.reverse.dropWhile (· == '0')).dropWhile (· == '.')).reverse)
  else numeral

/-- A double with a number of places that is checked first, without the zeros at the end; of many
places only the exact ones matter. -/
def trimmed? (x : Double) (places : Int) : Except NumberError String := do
  let places ← checkPlaces places none
  .ok (trimZeros (x.fixed (min places exactPlaces)))

end Double

end Metrology
