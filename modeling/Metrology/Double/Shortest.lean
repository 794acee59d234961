import Metrology.Double

/-!
# The shortest decimal that reads back

The text of a double is the decimal with the fewest digits among those that round to it, and the
nearest such decimal if there are several; of two that are equally near, the one with the even last
digit.

## Which digits

A magnitude of rank `r` is what every real number between the midpoints to its two neighbours rounds
to; the midpoints themselves belong to it when its significand is even. For a given number of digits
only the two decimals next to the magnitude need testing: if any decimal of that length lies in the
interval, one of these two does.

## How they are laid out

`Double.text` writes them positionally while the decimal point stays within the digits or close to
them, and otherwise with an exponent. `Double.Layout` holds the decisions.
-/

namespace Metrology

namespace Double

/-! ### Decimal size -/

/-- The least `k` from a starting point on, within a number of steps, with `n < 10 ^ k`. -/
def lengthFrom (n : Nat) : Nat → Nat → Nat
  | 0, k => k
  | steps + 1, k => if n < tenTo k then k else lengthFrom n steps (k + 1)

/-- The number of decimal digits of `n`, none for zero. The starting point is low since
`10 ^ 30102 < 2 ^ 100000`. -/
def decimalLength (n : Nat) : Nat :=
  if n = 0 then 0 else lengthFrom n (n.log2 + 1) (n.log2 * 30102 / 100000)

/-- The exponent of the leading decimal digit of the positive quotient `num / den`. -/
def leadingExponent (num den : Nat) : Int :=
  let guess := (decimalLength num : Int) - decimalLength den
  let reached :=
    if 0 ≤ guess then den * tenTo guess.toNat ≤ num else den ≤ num * tenTo (-guess).toNat
  if reached then guess else guess - 1

/-! ### Digits -/

/-- A positive decimal `digits * 10 ^ exponent`. -/
structure Decimal where
  digits : Nat
  exponent : Int
deriving DecidableEq, Repr

/-- The decimal as a quotient of natural numbers. -/
def Decimal.quotient (d : Decimal) : Nat × Nat :=
  if 0 ≤ d.exponent then (d.digits * tenTo d.exponent.toNat, 1)
  else (d.digits, tenTo (-d.exponent).toNat)

/-- The decimal rounds to the magnitude of the given rank. All is compared in half units, in which
the midpoints to the neighbours are whole. -/
def Decimal.readsBack (rank : Nat) (d : Decimal) : Bool :=
  let (num, den) := d.quotient
  let low := (unitsOfRank (rank - 1) + unitsOfRank rank) * den
  let high := (unitsOfRank rank + unitsOfRank (rank + 1)) * den
  let value := 2 * num * one
  if rank % 2 = 0 then low ≤ value && value ≤ high else low < value && value < high

/-- The decimals just below and just above the magnitude whose last digit has the given exponent,
and whether the lower one is to be taken: it is when it is nearer, and when both are equally near
and its last digit is even. -/
def neighbours (rank : Nat) (exponent : Int) : Decimal × Decimal × Bool :=
  let (num, den) :=
    if 0 ≤ exponent then (unitsOfRank rank, one * tenTo exponent.toNat)
    else (unitsOfRank rank * tenTo (-exponent).toNat, one)
  let floor := num / den
  let rest := num % den
  (⟨floor, exponent⟩, ⟨floor + 1, exponent⟩,
    2 * rest < den || 2 * rest == den && floor % 2 == 0)

/-- The decimal of a given last exponent that reads back, the better one if both neighbours do. -/
def nearestReadingBack? (rank : Nat) (exponent : Int) : Option Decimal :=
  let (below, above, takesLower) := neighbours rank exponent
  let (first, second) := if takesLower then (below, above) else (above, below)
  if first.readsBack rank then some first
  else if second.readsBack rank then some second
  else none

/-- Tries one more digit at a time. Seventeen digits always suffice, which is where it ends. -/
def shortestFrom (rank : Nat) (leading : Int) : Nat → Decimal
  | 0 => (neighbours rank (leading - 16)).1
  | fuel + 1 =>
    match nearestReadingBack? rank (leading - (16 - fuel : Nat)) with
    | some d => d
    | none => shortestFrom rank leading fuel

/-- The shortest decimal for a nonzero rank. -/
def shortest (rank : Nat) : Decimal :=
  shortestFrom rank (leadingExponent (unitsOfRank rank) one) 17

/-! ### Layout -/

/-- The decisions of a text form: between which exponents of the leading digit the digits are
written positionally, and how many digits an exponent has at least. -/
structure Layout where
  positionalFrom : Int
  positionalBelow : Int
  exponentWidth : Nat

/-- Positional from `0.0001` up to sixteen places before the point; exponents have two digits. -/
def standardLayout : Layout := ⟨-4, 16, 2⟩

/-- Pads a numeral on the left. -/
def padLeft (width : Nat) (fill : Char) (text : String) : String :=
  String.ofList (List.replicate (width - text.length) fill) ++ text

/-- The digits of a decimal without trailing zeros. -/
def trimmedDigits (digits : List Char) : List Char :=
  (digits.reverse.dropWhile (· == '0')).reverse

/-- Digits `d₀d₁…` with leading exponent `exponent`, written positionally with at least one place
after the point. -/
def positional (digits : List Char) (exponent : Int) : String :=
  if exponent < 0 then
    "0." ++ String.ofList (List.replicate (-exponent - 1).toNat '0' ++ digits)
  else
    let wholeLength := exponent.toNat + 1
    let whole := digits.take wholeLength
    let fraction := digits.drop wholeLength
    String.ofList (whole ++ List.replicate (wholeLength - digits.length) '0') ++ "." ++
      (if fraction.isEmpty then "0" else String.ofList fraction)

/-- An exponent, with its mark and its sign. -/
def exponentText (width : Nat) (exponent : Int) : String :=
  (if exponent < 0 then "e-" else "e+") ++ padLeft width '0' (toString exponent.natAbs)

/-- Digits `d₀d₁…` as `d₀.d₁…e±xx`. -/
def exponential (width : Nat) (digits : List Char) (exponent : Int) : String :=
  let mantissa :=
    match digits with
    | [] => ""
    | [d] => String.singleton d
    | d :: rest => String.ofList (d :: '.' :: rest)
  mantissa ++ exponentText width exponent

/-- The text of a positive decimal. -/
def Decimal.text (layout : Layout) (d : Decimal) : String :=
  let digits := (toString d.digits).toList
  let exponent := d.exponent + digits.length - 1
  let digits := trimmedDigits digits
  if layout.positionalFrom ≤ exponent ∧ exponent < layout.positionalBelow then
    positional digits exponent
  else exponential layout.exponentWidth digits exponent

/-- A double as text: the shortest decimal that reads back, or the name of the special value. -/
def text : Double → String
  | nan => "nan"
  | infinite negative => if negative then "-inf" else "inf"
  | finite negative rank =>
    let magnitude := if rank.val = 0 then "0.0" else (shortest rank.val).text standardLayout
    if negative then "-" ++ magnitude else magnitude

end Double

end Metrology
