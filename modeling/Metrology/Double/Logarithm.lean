import Metrology.Double.Places

/-!
# Logarithms and powers of ten

The decimal exponent of a number is the floor of its common logarithm, computed in doubles.

## How the logarithm is formed

With `x = 2 ^ k * m` the common logarithm is `k * log₁₀ 2 + ln m / ln 10`. The product with `log₁₀
2` is split in two, a high part that is exact for every `k` and a low part; the natural logarithm of
`m` is the nearest double, from a fixed-point series; every other step is one operation on doubles.
The significand `m` is taken between one and two for `k ≥ 0`, and between one half and one below, so
that numbers near one lose nothing to cancellation.

Because the result is rounded, a number just below a power of ten can get that power's exponent.

## Which logarithm this is

The formula is that of one mathematical library. The library's own natural logarithm is not always
the nearest double, so its common logarithm can be another double than this one; that of
`9.999999999999673e196` is. What is proved of decimal exponents uses no more than how far below a
power of ten they can be wrong, and that they are right at the powers.

Powers of ten are those of the library too. `raisedPowers` is the table of its errors.
-/

namespace Metrology

namespace Double

/-! ### The natural logarithm near one -/

/-- Binary places of the fixed-point series. -/
def seriesPlaces : Nat := 200

/-- Sums `t + t³/3 + t⁵/5 + …` in fixed point: `power` is the current odd power of `t`, `square` is
`t²`, and `odd` its exponent. -/
def oddSeries (square : Int) : Nat → Nat → Int → Int
  | 0, _, _ => 0
  | terms + 1, odd, power =>
    power / odd + oddSeries square terms (odd + 2) (power * square / twoTo seriesPlaces)

/-- The natural logarithm of `num / den` in fixed point, for quotients between one half and two, as
twice the inverse hyperbolic tangent of `(num - den) / (num + den)`. -/
def lnFixed (num den : Nat) : Int :=
  let t : Int := ((num : Int) - den) * twoTo seriesPlaces / (num + den)
  2 * oddSeries (t * t / twoTo seriesPlaces) 64 1 t

/-- The double nearest to the natural logarithm of `num / den`. -/
def ln (num den : Nat) : Double :=
  let value := lnFixed num den
  ofQuotient (value < 0) value.natAbs (twoTo seriesPlaces)

/-! ### The common logarithm -/

/-- The double nearest to `1 / ln 10`. -/
def recipLnTen : Double := 0.43429448190325182

/-- `log₁₀ 2` cut to 33 significant bits. -/
def logTwoHigh : Double := 0.30102999566361177

/-- What `logTwoHigh` leaves of `log₁₀ 2`. -/
def logTwoLow : Double := 3.6942390771589308e-13

/-- The common logarithm of the quotient `num / den` with `2 ^ exponent ≤ num / den`, the exponent
being the greatest such. -/
def logTenOf (num den : Nat) (exponent : Int) : Double :=
  let shift := if exponent < 0 then exponent + 1 else exponent
  let (num, den) :=
    if 0 ≤ shift then (num, den * twoTo shift.toNat) else (num * twoTo (-shift).toNat, den)
  let count := ofInt shift
  count * logTwoLow + recipLnTen * ln num den + count * logTwoHigh

/-- The common logarithm of a magnitude; zero has the logarithm minus infinity. -/
def logTen : Double → Double
  | nan => nan
  | infinite _ => infinite false
  | finite _ rank =>
    let units := unitsOfRank rank.val
    if units = 0 then infinite true
    else logTenOf units one ((units.log2 : Int) - 1074)

/-! ### Decimal exponents -/

/-- The power of ten of the leading digit, as the rounded logarithm gives it; `0` for zero. -/
def decimalExponent (x : Double) : Except NumberError Int :=
  if x.isZero then .ok 0 else x.logTen.floor

/-- The decimal exponent of a whole number. One that is too large for a double is scaled by a power
of two first, and the logarithm of that power is added. -/
def decimalExponentOfInt (n : Int) : Except NumberError Int :=
  if n = 0 then .ok 0
  else
    match ofInt n with
    | infinite _ =>
      let bits := n.natAbs.log2 + 1
      let scaled := ofQuotient false n.natAbs (twoTo bits)
      (scaled.logTen + logTen 2 * ofInt bits).floor
    | x => x.logTen.floor

/-! ### Powers of ten -/

/-- The exponents at which the library's power of ten is one rank above the nearest double. At all
others it is the nearest double. -/
def raisedPowers : List Int := [23, 210]

/-- The power of ten that scales by decimal exponents. -/
def tenPow (exponent : Int) : Double :=
  match ofDecimal false 1 exponent with
  | finite negative rank =>
    if exponent ∈ raisedPowers then ofRank negative (rank.val + 1) else finite negative rank
  | x => x

end Double

end Metrology
