import Metrology.Value

/-!
# Steps and maps of values

An arithmetic step has a fixed second operand. Multiplying by a multiplier is one step; a
temperature scale takes several.

A number goes through a step by the arithmetic of numbers. The cells of an array are doubles, and so
is the operand they meet; a cell that is divided by zero becomes infinite or not-a-number, where a
number fails. That holds of a cell on its own too.

Steps one after the other make a map of values, but a map need not be made of steps.
-/

namespace Metrology

/-- One arithmetic step with a fixed second operand. -/
inductive Step where
  | plus (operand : Scalar)
  | minus (operand : Scalar)
  | times (operand : Scalar)
  | dividedBy (operand : Scalar)
deriving DecidableEq

namespace Step

def operand : Step → Scalar
  | plus y | minus y | times y | dividedBy y => y

/-- The step on a number. -/
def onNumber (x : Scalar) : Step → Except NumberError Scalar
  | plus y => x.add y
  | minus y => x.sub y
  | times y => x.mul y
  | dividedBy y => x.div y

/-- The step on a cell, with the double that its operand stands for. -/
def onCell (y x : Double) : Step → Double
  | plus _ => x + y
  | minus _ => x - y
  | times _ => x * y
  | dividedBy _ => x / y

/-- The step on a value. -/
def run (value : Value) (step : Step) : Except NumberError Value :=
  match value with
  | .number x => (step.onNumber x).map .number
  | .array grid => step.operand.toDouble.map fun y ↦ .ofComputed (grid.map (step.onCell y))
  | .cell x => step.operand.toDouble.map fun y ↦ .cell (step.onCell y x)

@[simp] theorem run_times_double (x y : Double) :
    (times (.double y)).run (.ofDouble x) = .ok (.ofDouble (x * y)) := rfl

theorem run_dividedBy_double {x y : Double} (h : y.isZero = false) :
    (dividedBy (.double y)).run (.ofDouble x) = .ok (.ofDouble (x / y)) := by
  simp [run, onNumber, Value.ofDouble, Scalar.div_double h, Except.map]

/-- An array without axes is computed with as its cell is. -/
theorem run_array_cell (step : Step) (x : Double) :
    step.run (.array (.cell x)) = step.run (.cell x) := by
  simp [run, Grid.map, Value.ofComputed]

/-- A double that goes through a step is a double. -/
theorem isDouble_onNumber {step : Step} {x : Double} {y : Scalar}
    (h : step.onNumber (.double x) = .ok y) : y.IsDouble := by
  have hcombine : ∀ exact rounded z, Scalar.combine exact rounded (.double x) z = .ok y →
      y.IsDouble := by
    intro exact rounded z h
    rw [Scalar.combine_double] at h
    rcases hz : z.toDouble with e | d
    · exact absurd (hz ▸ h) (by simp [Except.map])
    · exact ⟨_, (Except.ok.inj (hz ▸ h)).symm⟩
  cases step with
  | plus z => exact hcombine (· + ·) (· + ·) z h
  | minus z => exact hcombine (· - ·) (· - ·) z h
  | times z => exact hcombine (· * ·) (· * ·) z h
  | dividedBy z =>
    rw [onNumber, Scalar.div_double_left] at h
    rcases hz : z.toDouble with e | d
    · exact absurd (hz ▸ h) (by simp [bind, Except.bind])
    · simp only [hz, bind, Except.bind] at h
      split at h
      · exact absurd h (by simp)
      · exact ⟨_, (Except.ok.inj h).symm⟩

theorem isDouble_run {step : Step} {x : Double} {value : Value}
    (h : step.run (.ofDouble x) = .ok value) : ∃ y, value = .ofDouble y := by
  rcases hstep : step.onNumber (.double x) with e | y
  · exact absurd h (by simp [run, Value.ofDouble, hstep, Except.map])
  · obtain ⟨z, rfl⟩ := isDouble_onNumber hstep
    rw [Value.ofDouble, run, hstep] at h
    exact ⟨z, (Except.ok.inj h).symm⟩

/-- What becomes of a value that is no whole number is none either. -/
theorem isWhole_run {step : Step} {value result : Value} (hvalue : value.isWhole = false)
    (h : step.run value = .ok result) : result.isWhole = false := by
  cases value with
  | number x =>
    cases x with
    | int n => exact absurd hvalue (by simp [Value.isWhole])
    | double x =>
      obtain ⟨y, rfl⟩ := isDouble_run h
      rfl
  | array grid =>
    rcases hy : step.operand.toDouble with e | y
    · exact absurd h (by simp [run, hy, Except.map])
    · rw [run, hy] at h
      exact Except.ok.inj h ▸ Value.isWhole_ofComputed _
  | cell x =>
    rcases hy : step.operand.toDouble with e | y
    · exact absurd h (by simp [run, hy, Except.map])
    · rw [run, hy] at h
      exact Except.ok.inj h ▸ rfl

end Step

/-- Steps applied to a value one after the other. -/
def runSteps (steps : List Step) (value : Value) : Except NumberError Value :=
  steps.foldlM Step.run value

theorem runSteps_singleton (step : Step) (value : Value) :
    runSteps [step] value = step.run value := by
  rw [runSteps, List.foldlM_cons]
  rcases step.run value with e | result <;> rfl

theorem isDouble_runSteps {steps : List Step} {x : Double} {value : Value}
    (h : runSteps steps (.ofDouble x) = .ok value) : ∃ y, value = .ofDouble y := by
  induction steps generalizing x with
  | nil => exact ⟨x, (Except.ok.inj h).symm⟩
  | cons step steps ih =>
    rw [runSteps, List.foldlM_cons] at h
    rcases hstep : step.run (.ofDouble x) with e | next
    · exact absurd (hstep ▸ h) (by simp [bind, Except.bind])
    · obtain ⟨y, rfl⟩ := Step.isDouble_run hstep
      rw [hstep] at h
      exact ih h

theorem isWhole_runSteps {steps : List Step} {value result : Value}
    (hvalue : value.isWhole = false) (h : runSteps steps value = .ok result) :
    result.isWhole = false := by
  induction steps generalizing value with
  | nil => exact Except.ok.inj h ▸ hvalue
  | cons step steps ih =>
    rw [runSteps, List.foldlM_cons] at h
    rcases hstep : step.run value with e | next
    · exact absurd (hstep ▸ h) (by simp [bind, Except.bind])
    · rw [hstep] at h
      exact ih (Step.isWhole_run hvalue hstep) h

/-! ### Maps -/

/-- A map of values, which may fail as arithmetic does. It makes doubles of doubles, and no whole
number of anything else. -/
structure ValueMap where
  run : Value → Except NumberError Value
  isDouble_run : ∀ {x value}, run (.ofDouble x) = .ok value → ∃ y, value = .ofDouble y
  isWhole_run : ∀ {value result}, value.isWhole = false → run value = .ok result →
    result.isWhole = false

/-- The map that steps make. -/
def ValueMap.ofSteps (steps : List Step) : ValueMap where
  run := runSteps steps
  isDouble_run := isDouble_runSteps
  isWhole_run := isWhole_runSteps

end Metrology
