import Metrology.Double.Places
import Metrology.Value

/-!
# Values in messages

A message shows the value that it is about. A number is shown by its text, and so is a cell on its
own; an array with axes shows its cell in a pair of brackets for each of them.

A cell between brackets has at most `cellPlaces` places, after its point or, if it is written with
an exponent, after its leading digit. It keeps its point, but no zero after it.
-/

namespace Metrology

namespace Rendering

/-- The places that a cell has at most. -/
def cellPlaces : Nat := 8

/-- Whether a finite cell is written without an exponent. -/
def isPositionalCell (x : Double) : Bool :=
  x.isZero || Double.le 1e-4 x.abs && Double.lt x.abs 1e8

/-- A numeral without the zeros at its end. -/
def dropZeros (numeral : String) : String :=
  String.ofList (Double.trimmedDigits numeral.toList)

/-- A cell without an exponent: the shortest numeral if it has so few places, else the rounded
one. -/
def positionalCell (x : Double) : String :=
  let point := x.text.toList.dropWhile (· != '.')
  dropZeros (if point.length ≤ cellPlaces + 1 then x.text else x.fixed cellPlaces)

/-- The decimal of a magnitude that is written with an exponent: the shortest one if it has so few
places, else the rounded one. -/
def cellDecimal (rank : Nat) : Double.Decimal :=
  let shortest := Double.shortest rank
  if (Double.trimmedDigits (toString shortest.digits).toList).length ≤ cellPlaces + 1 then shortest
  else
    let leading := Double.leadingExponent (Double.unitsOfRank rank) Double.one
    ⟨Double.stepsAtPlaces rank (cellPlaces - leading), leading - cellPlaces⟩

/-- A decimal with its point after the leading digit, and an exponent. -/
def exponentialCell (d : Double.Decimal) : String :=
  let digits := (toString d.digits).toList
  let exponent := d.exponent + digits.length - 1
  match Double.trimmedDigits digits with
  | [] => ""
  | digit :: rest =>
    String.ofList (digit :: '.' :: rest) ++
      Double.exponentText Double.standardLayout.exponentWidth exponent

/-- A cell between brackets. -/
def cellText (x : Double) : String :=
  match x with
  | .finite negative rank =>
    if isPositionalCell x then positionalCell x
    else (if negative then "-" else "") ++ exponentialCell (cellDecimal rank)
  | _ => x.text

/-- A value as a message shows it. -/
def shownValue : Value → String
  | .number x => x.text
  | .cell x | .array (.cell x) => x.text
  | .array grid =>
    String.ofList (List.replicate grid.axes '[') ++
      " ".intercalate (grid.cells.map cellText) ++
      String.ofList (List.replicate grid.axes ']')

end Rendering

end Metrology
