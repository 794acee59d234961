import Metrology.Double.Places

/-!
# Values

What a conversion is applied to. A value is a number or an array of doubles; a number is a whole
number of any size or a double.

An array without axes has a single cell. Once something has been computed from it, it is an array no
longer but that cell alone, a number that still goes by the arithmetic of cells.

## Arithmetic of numbers

Sums, differences and products of whole numbers are whole and exact, and their quotient is the
double nearest to the exact one. As soon as one operand is a double, the other one becomes the
nearest double too, and a whole number may be too large for that.
-/

namespace Metrology

/-- A number as it was given. -/
inductive Scalar where
  | int (value : Int)
  | double (value : Double)
deriving DecidableEq, Inhabited

namespace Scalar

/-- The double a number stands for in arithmetic; a whole number may be too large for one. -/
def toDouble : Scalar → Except NumberError Double
  | double x => .ok x
  | int n => if (Double.ofInt n).isFinite then .ok (Double.ofInt n) else .error .overflow

def text : Scalar → String
  | double x => x.text
  | int n => toString n

def isZero : Scalar → Bool
  | double x => x.isZero
  | int n => n == 0

/-- Neither zero, nor infinite, nor not-a-number, nor too large for a double. -/
def isUsable : Scalar → Bool
  | double x => x.isFiniteNonzero
  | int n => n != 0 && (Double.ofInt n).isFinite

/-- A number given as a double. -/
def IsDouble (x : Scalar) : Prop := ∃ y : Double, x = .double y

@[simp] theorem toDouble_double (x : Double) : (double x).toDouble = .ok x := rfl

@[simp] theorem isUsable_double (x : Double) : (double x).isUsable = x.isFiniteNonzero := rfl

/-- A usable number becomes a finite double in arithmetic. -/
theorem toDouble_of_isUsable {x : Scalar} (h : x.isUsable = true) :
    ∃ y : Double, x.toDouble = .ok y ∧ y.isFinite = true := by
  cases x with
  | double x => exact ⟨x, rfl, by simp_all [Double.isFiniteNonzero]⟩
  | int n =>
    simp only [isUsable, Bool.and_eq_true] at h
    exact ⟨Double.ofInt n, by simp [toDouble, h.2], h.2⟩

/-! ### Order -/

/-- A finite double equals a whole number exactly. -/
def eqvInt (x : Double) (n : Int) : Bool :=
  match x with
  | .finite negative rank => Double.signedUnits negative rank == n * (Double.one : Int)
  | _ => false

/-- Numeric equality, which is exact between a whole number and a double too. -/
def eqv : Scalar → Scalar → Bool
  | int m, int n => m == n
  | double x, double y => x.eqv y
  | int n, double x | double x, int n => eqvInt x n

/-! ### Arithmetic -/

/-- An operation that is exact on whole numbers. -/
def combine (exact : Int → Int → Int) (rounded : Double → Double → Double) :
    Scalar → Scalar → Except NumberError Scalar
  | int m, int n => .ok (int (exact m n))
  | x, y => do return double (rounded (← x.toDouble) (← y.toDouble))

def add : Scalar → Scalar → Except NumberError Scalar := combine (· + ·) (· + ·)

def sub : Scalar → Scalar → Except NumberError Scalar := combine (· - ·) (· - ·)

def mul : Scalar → Scalar → Except NumberError Scalar := combine (· * ·) (· * ·)

/-- The double nearest to the quotient of two whole numbers, the second one not zero. The signs
count even where the quotient is zero. -/
def ratio (m n : Int) : Double :=
  Double.ofQuotient (decide (m < 0) != decide (n < 0)) m.natAbs n.natAbs

/-- The quotient. Nothing is divided by zero, and whole numbers may have a quotient that is too
large for a double. -/
def div : Scalar → Scalar → Except NumberError Scalar
  | int m, int n =>
    if n = 0 then .error .divisionByZero
    else if (ratio m n).isFinite then .ok (double (ratio m n))
    else .error .overflow
  | x, y => do
    let x ← x.toDouble
    let y ← y.toDouble
    if y.isZero then .error .divisionByZero else .ok (double (x / y))

@[simp] theorem mul_double (x y : Double) :
    (double x).mul (double y) = .ok (double (x * y)) := rfl

@[simp] theorem mul_int (m n : Int) : (int m).mul (int n) = .ok (int (m * n)) := rfl

theorem div_double {x y : Double} (h : y.isZero = false) :
    (double x).div (double y) = .ok (double (x / y)) := by
  simp [div, h, bind, Except.bind]

/-- An operation with a double on the left takes the double of what is on the right. -/
theorem combine_double (exact : Int → Int → Int) (rounded : Double → Double → Double)
    (x : Double) (y : Scalar) :
    combine exact rounded (.double x) y = y.toDouble.map fun y ↦ .double (rounded x y) := by
  rw [combine.eq_2 _ _ _ _ (by simp)]
  rcases y.toDouble with e | z <;> rfl

theorem div_double_left (x : Double) (y : Scalar) :
    (double x).div y = y.toDouble >>= fun y ↦
      if y.isZero then .error .divisionByZero else .ok (.double (x / y)) := by
  rw [div.eq_2 _ _ (by simp)]
  rfl

end Scalar

/-- An array of doubles of any shape. -/
inductive Grid where
  | cell (value : Double)
  | row (cells : List Grid)
deriving Inhabited

namespace Grid

/-- Applies a function to every cell. -/
def map (f : Double → Double) : Grid → Grid
  | cell x => cell (f x)
  | row grids => row (grids.map (map f))

/-- The cells in order. -/
def cells : Grid → List Double
  | cell x => [x]
  | row grids => grids.flatMap cells

/-- The number of axes. -/
def axes : Grid → Nat
  | cell _ => 0
  | row [] => 1
  | row (grid :: _) => grid.axes + 1

@[simp] theorem cells_cell (x : Double) : (cell x).cells = [x] := by simp [cells]

@[simp] theorem cells_row (grids : List Grid) : (row grids).cells = grids.flatMap cells := by
  simp [cells]

end Grid

/-- A value: a number, an array, or a cell that has been computed from an array without axes. -/
inductive Value where
  | number (scalar : Scalar)
  | array (grid : Grid)
  | cell (value : Double)

namespace Value

/-- The value is a whole number. -/
def isWhole : Value → Bool
  | number (.int _) => true
  | _ => false

/-- Not-a-number in the shape of a value. -/
def nanLike : Value → Value
  | number _ | cell _ => number (.double .nan)
  | array grid => array (grid.map fun _ ↦ .nan)

/-- A double as a value. -/
def ofDouble (x : Double) : Value := number (.double x)

/-- What has been computed from an array, cell by cell. -/
def ofComputed : Grid → Value
  | .cell x => cell x
  | grid => array grid

/-- The number that a value stands for; an array stands for one only if it has a single cell. -/
def single? : Value → Option Scalar
  | number x => some x
  | cell x => some (.double x)
  | array grid =>
    match grid.cells with
    | [x] => some (.double x)
    | _ => none

@[simp] theorem single?_number (x : Scalar) : (number x).single? = some x := rfl

@[simp] theorem single?_cell (x : Double) : (cell x).single? = some (.double x) := rfl

/-- Computing from an array keeps its cells. -/
theorem single?_ofComputed (grid : Grid) : (ofComputed grid).single? = (array grid).single? := by
  cases grid <;> simp [ofComputed, single?]

/-- Not-a-number is no whole number. -/
theorem isWhole_nanLike (value : Value) : value.nanLike.isWhole = false := by
  cases value <;> rfl

theorem isWhole_ofComputed (grid : Grid) : (ofComputed grid).isWhole = false := by
  cases grid <;> rfl

end Value

end Metrology
