/-!
# Doubles

The numbers that multipliers and quantities are held in: not-a-number, the two infinities, and
signed finite magnitudes with a significand of 53 bits.

## Magnitudes are ranked

The finite magnitudes, in increasing order, are numbered `0, 1, 2, …`. A magnitude **is** its rank,
so there is nothing to keep canonical: equal magnitudes have equal ranks, order is the order of
ranks, and the neighbour above is the next rank. Every magnitude is a whole number of units of
`2 ^ (-1074)`, which `Double.unitsOfRank` gives.

## Arithmetic is exact, then rounded once

Each operation forms its exact result as a quotient of two whole numbers of units and hands it to
`Double.nearest`, the one place where rounding happens: to the nearest magnitude, and halfway to
the one with the even significand. Nothing here depends on the machine.
-/

namespace Metrology

/-! ### Powers -/

/-- A power of two. -/
def twoTo (exponent : Nat) : Nat := Nat.pow 2 exponent

/-- A power of ten. -/
def tenTo (exponent : Nat) : Nat := Nat.pow 10 exponent

/-! ### The type -/

/-- The number of finite magnitudes. -/
def rankCount : Nat := 2047 * twoTo 52

/-- A double: not-a-number, an infinity, or a sign with the rank of a finite magnitude. -/
inductive Double where
  | nan
  | infinite (negative : Bool)
  | finite (negative : Bool) (rank : Fin rankCount)
deriving DecidableEq, Inhabited

namespace Double

/-! ### Ranks and units -/

/-- The number of units of the unit in the last place, as a power of two, at a rank. The first two
binades share the spacing of one unit. -/
def spacingExponent (rank : Nat) : Nat := rank / twoTo 52 - 1

/-- The significand at a rank: the whole rank in the lowest binade, where there is no hidden bit. -/
def significand (rank : Nat) : Nat :=
  if rank < twoTo 52 then rank else twoTo 52 + rank % twoTo 52

/-- The magnitude of a rank in units of `2 ^ (-1074)`. -/
def unitsOfRank (rank : Nat) : Nat := significand rank * twoTo (spacingExponent rank)

/-- How many units make one. -/
def one : Nat := twoTo 1074

/-! ### Rounding -/

/-- The whole number nearest to `num / den`, a half going to the even neighbour. -/
def roundHalfEven (num den : Nat) : Nat :=
  let floor := num / den
  let rest := num % den
  if 2 * rest < den then floor
  else if den < 2 * rest then floor + 1
  else floor + floor % 2

/-- The rank nearest to `num / den` units, without a bound: ranks from `rankCount` on lie beyond
the largest finite magnitude. The carry out of a full significand is the step to the next binade. -/
def nearestRank (num den : Nat) : Nat :=
  let binade := (num / den).log2 - 52
  binade * twoTo 52 + roundHalfEven num (den * twoTo binade)

/-- Zero with a sign. -/
def signedZero (negative : Bool) : Double := finite negative ⟨0, by decide⟩

/-- The magnitude at an unbounded rank; infinity beyond the largest one. -/
def ofRank (negative : Bool) (rank : Nat) : Double :=
  if h : rank < rankCount then finite negative ⟨rank, h⟩ else infinite negative

/-- The double nearest to `num / den` units, with the given sign. -/
def nearest (negative : Bool) (num den : Nat) : Double :=
  ofRank negative (nearestRank num den)

/-- The double nearest to the quotient `num / den`, with the given sign. -/
def ofQuotient (negative : Bool) (num den : Nat) : Double :=
  nearest negative (num * one) den

/-- The double nearest to a whole number. -/
def ofInt (n : Int) : Double := ofQuotient (n < 0) n.natAbs 1

/-- The double nearest to `digits * 10 ^ exponent`, with the given sign. Far outside the range of
the magnitudes the answer is known without forming the power: `digits` has at most
`digits.log2 + 1` decimal places. -/
def ofDecimal (negative : Bool) (digits : Nat) (exponent : Int) : Double :=
  if digits = 0 then signedZero negative
  else if 400 < exponent then infinite negative
  else if exponent + digits.log2 < -400 then signedZero negative
  else if 0 ≤ exponent then ofQuotient negative (digits * tenTo exponent.toNat) 1
  else ofQuotient negative digits (tenTo (-exponent).toNat)

/-! ### Sign, class and order -/

def isNaN : Double → Bool
  | nan => true
  | _ => false

def isFinite : Double → Bool
  | finite _ _ => true
  | _ => false

/-- Zero of either sign. -/
def isZero : Double → Bool
  | finite _ rank => rank.val == 0
  | _ => false

/-- The sign is a minus; not-a-number has no sign. -/
def isNegative : Double → Bool
  | nan => false
  | infinite negative => negative
  | finite negative _ => negative

def negate : Double → Double
  | nan => nan
  | infinite negative => infinite !negative
  | finite negative rank => finite (!negative) rank

def abs : Double → Double
  | nan => nan
  | infinite _ => infinite false
  | finite _ rank => finite false rank

instance : Neg Double := ⟨negate⟩

/-- A double's place in the order of all doubles; both zeros have place `0`, and not-a-number has
none. -/
def place : Double → Option Int
  | nan => none
  | infinite negative => some (if negative then -(rankCount : Int) else rankCount)
  | finite negative rank => some (if negative then -(rank.val : Int) else rank.val)

/-- Comparison by a relation on places; false as soon as one side is not-a-number. -/
def compareBy (holds : Int → Int → Bool) (x y : Double) : Bool :=
  match x.place, y.place with
  | some i, some j => holds i j
  | _, _ => false

/-- Numeric equality: the zeros are equal, and not-a-number equals nothing. -/
def eqv : Double → Double → Bool := compareBy (· == ·)

def lt : Double → Double → Bool := compareBy (· < ·)

def le : Double → Double → Bool := compareBy (· ≤ ·)

/-! ### Arithmetic -/

/-- A finite double in units, with its sign. -/
def signedUnits (negative : Bool) (rank : Nat) : Int :=
  if negative then -(unitsOfRank rank : Int) else unitsOfRank rank

/-- The sum. An exact sum of zero is negative only when both terms are. -/
def add : Double → Double → Double
  | nan, _ | _, nan => nan
  | infinite s, infinite t => if s = t then infinite s else nan
  | infinite s, finite _ _ => infinite s
  | finite _ _, infinite t => infinite t
  | finite s a, finite t b =>
    let sum := signedUnits s a + signedUnits t b
    if sum = 0 then signedZero (s && t)
    else nearest (sum < 0) sum.natAbs 1

def sub (x y : Double) : Double := add x (negate y)

/-- The product; its sign is negative when the signs differ. -/
def mul : Double → Double → Double
  | nan, _ | _, nan => nan
  | infinite s, infinite t => infinite (s != t)
  | infinite s, finite t b => if b.val = 0 then nan else infinite (s != t)
  | finite s a, infinite t => if a.val = 0 then nan else infinite (s != t)
  | finite s a, finite t b => nearest (s != t) (unitsOfRank a * unitsOfRank b) one

/-- The quotient. A nonzero number over zero is infinite, zero over zero is not-a-number. -/
def div : Double → Double → Double
  | nan, _ | _, nan => nan
  | infinite _, infinite _ => nan
  | infinite s, finite t _ => infinite (s != t)
  | finite s _, infinite t => signedZero (s != t)
  | finite s a, finite t b =>
    if b.val = 0 then (if a.val = 0 then nan else infinite (s != t))
    else nearest (s != t) (unitsOfRank a * one) (unitsOfRank b)

instance : Add Double := ⟨add⟩
instance : Sub Double := ⟨sub⟩
instance : Mul Double := ⟨mul⟩
instance : Div Double := ⟨div⟩

/-- The remainder of a finite number by a finite modulus that is not zero, with the sign of the
modulus. The remainder of the magnitudes is exact; adding the modulus to one of the other sign
rounds, so the result may be the modulus itself. -/
def floorMod : Double → Double → Double
  | finite s a, finite t b =>
    let rest := nearest s (unitsOfRank a % unitsOfRank b) 1
    if rest.isZero then signedZero t
    else if s = t then rest
    else rest + finite t b
  | _, _ => nan

/-! ### Constants -/

def zero : Double := signedZero false

instance (n : Nat) : OfNat Double n := ⟨ofInt n⟩

/-- Decimal literals denote the nearest double. -/
instance : OfScientific Double where
  ofScientific digits negativeExponent exponent :=
    ofDecimal false digits (if negativeExponent then -(exponent : Int) else exponent)

/-! ### Whether a result is usable -/

/-- Neither zero, nor infinite, nor not-a-number. -/
def isFiniteNonzero (x : Double) : Bool := x.isFinite && !x.isZero

@[simp] theorem isFinite_nan : isFinite nan = false := rfl
@[simp] theorem isFinite_infinite (s : Bool) : isFinite (infinite s) = false := rfl
@[simp] theorem isFinite_finite (s : Bool) (r : Fin rankCount) :
    isFinite (finite s r) = true := rfl
@[simp] theorem isNaN_nan : isNaN nan = true := rfl

theorem not_isNaN_of_isFinite {x : Double} (h : x.isFinite = true) : x.isNaN = false := by
  cases x <;> simp_all [isNaN]

@[simp] theorem roundHalfEven_one (n : Nat) : roundHalfEven n 1 = n := by
  simp [roundHalfEven, Nat.mod_one]

end Double

end Metrology
