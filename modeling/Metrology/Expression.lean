import Metrology.Double.Power
import Metrology.Expression.Parts
import Metrology.Registry
import Metrology.Text.Literal

/-!
# Unit expressions

The multiplier of a unit expression such as `m^3/(kg s^2)`, `10^24 kg` or `d^-1` over the linear
entries of a registry. The registry is only read.

Registered multipliers that are whole numbers stay whole in products; literals are doubles.

## Order of evaluation

A text that is one group is its inside. Otherwise the loosest operator outside parentheses splits
it, the left side is evaluated before the right, and the operation comes last; the first failure in
this order is the failure of the whole. A text without operators is a registered symbol or a
literal, the symbol winning.

## Nesting

Each group and each operand is one level deeper. `Expression.maxNesting` levels can be evaluated; an
expression that reaches further fails there, in the same order of evaluation.
-/

namespace Metrology

/-! ### Operations -/

/-- The result of an operation, if it has one. Powers are powers of doubles. -/
def Operator.apply? (operator : Operator) (left right : Scalar) : Option Scalar :=
  match operator with
  | product => (left.mul right).toOption
  | quotient => (left.div right).toOption
  | power => do return .double (← (← left.toDouble.toOption).pow? (← right.toDouble.toOption))

namespace Expression

/-- The result of an operation at a part of an expression, which must be finite. Of a whole number
too large for a double that cannot be told. -/
def operate (expression : RawText) (operator : Operator) (part : List CodePoint)
    (left right : Scalar) : Except Failure Scalar :=
  match operator.apply? left right with
  | none => .error (.unit (.unresolved .notEvaluable ⟨part⟩ expression))
  | some (.int n) =>
    if (Double.ofInt n).isFinite then .ok (.int n) else .error (.number .overflow)
  | some (.double x) =>
    if x.isFinite then .ok (.double x)
    else .error (.unit (.unresolved (.notFinite x) ⟨part⟩ expression))

/-! ### Leaves -/

/-- The literal that a text is, if it is one. -/
def literal? (part : List CodePoint) : Option Text.Literal :=
  (RawText.chars? part).bind Text.Literal.read?

/-- The multiplier of a text without operators: a registered number, or the double of a literal. -/
def leaf (registry : Registry) (expression : RawText) (part : List CodePoint) :
    Except UnitError Scalar :=
  let symbol : RawText := ⟨part⟩
  match registry.linear? symbol, literal? part with
  | some multiplier, _ => .ok multiplier
  | none, some literal =>
    if literal.toDouble.isFinite then .ok (.double literal.toDouble)
    else .error (.unresolved .unknownPart symbol expression)
  | none, none =>
    if registry.nonlinear.contains symbol then
      .error (.unresolved .nonlinearPart symbol expression)
    else .error (.unresolved .unknownPart symbol expression)

/-! ### Evaluation -/

/-- The multiplier of a part of an expression, within a number of levels of nesting. -/
def evaluatePart (registry : Registry) (expression : RawText) :
    Nat → List CodePoint → Except Failure Scalar
  | 0, _ => .error (.unit (.unresolved .nestedTooDeeply expression expression))
  | levels + 1, part =>
    if part.isEmpty then .error (.unit (.unresolved .emptyPart "" expression))
    else
      match Parts.inside? part with
      | some inside => evaluatePart registry expression levels inside
      | none =>
        if !Parts.balanced part then
          .error (.unit (.unresolved .unmatchedParenthesis ⟨part⟩ expression))
        else
          match Parts.split? part with
          | some (operator, left, right) => do
            let x ← evaluatePart registry expression levels left
            let y ← evaluatePart registry expression levels right
            operate expression operator part x y
          | none => (leaf registry expression part).mapError Failure.unit

/-- The levels of nesting that can be evaluated. -/
def maxNesting : Nat := 900

/-- The multiplier of a unit expression, which must not be zero. -/
def evaluate (registry : Registry) (expression : RawText) : Except Failure Scalar := do
  let multiplier ← evaluatePart registry expression maxNesting expression.points
  if multiplier.isZero then .error (.unit (.unresolved .zeroMultiplier expression expression))
  else .ok multiplier

/-- The multiplier of a unit expression. If it cannot be resolved and that is to be silent it is
not-a-number; a failure of arithmetic is never silent. -/
def multiplier (registry : Registry) (expression : RawText) (failLoud : Bool) :
    Except Failure Scalar :=
  match evaluate registry expression with
  | .error (.unit e) => if failLoud then .error (.unit e) else .ok (.double .nan)
  | result => result

end Expression

end Metrology
