import Metrology.Proofs.Converter.Doubles
import Metrology.Proofs.Double.Order
import Metrology.Proofs.Registry.Seeding

/-!
# Steps on doubles

Every double goes through steps by numbers that are finite and not zero, and what was a number stays
one, though it may become infinite (`exists_runSteps_ofDouble`). One step does so since infinity is
met by finite numbers only, and not by zero (`Step.not_isNaN_onCell`).

Of the map of a unit no more is needed to tell by the number one whether there is a map at all
(`TakesDoubles`). The built-in nonlinear units are made of such steps (`isStepwise_builtIn`), and a
multiplication by a multiplier is one.
-/

namespace Metrology

namespace Double

variable {x y : Double}

theorem not_isNaN_ofRank (negative : Bool) (rank : Nat) : (ofRank negative rank).isNaN = false := by
  rw [ofRank]
  split <;> rfl

theorem not_isNaN_add (hx : x.isNaN = false) (hy : y.isFinite = true) :
    (x + y).isNaN = false := by
  cases y with
  | nan | infinite => exact absurd hy (by simp)
  | finite t q =>
    cases x with
    | nan => exact absurd hx (by simp)
    | infinite s => rfl
    | finite s p =>
      rw [add_finite]
      split
      · rfl
      · exact not_isNaN_ofRank _ _

theorem not_isNaN_sub (hx : x.isNaN = false) (hy : y.isFinite = true) : (x - y).isNaN = false :=
  not_isNaN_add hx ((isFinite_negate y).trans hy)

theorem not_isNaN_mul (hx : x.isNaN = false) (hy : y.isFiniteNonzero = true) :
    (x * y).isNaN = false := by
  cases y with
  | nan | infinite => exact absurd hy (by simp [isFiniteNonzero])
  | finite t q =>
    cases x with
    | nan => exact absurd hx (by simp)
    | infinite s =>
      have hq : q.val ≠ 0 := by simpa [isFiniteNonzero, isZero] using hy
      show ((infinite s).mul (finite t q)).isNaN = false
      rw [mul, if_neg hq]
      rfl
    | finite s p =>
      rw [mul_finite]
      exact not_isNaN_ofRank _ _

theorem not_isNaN_div (hx : x.isNaN = false) (hy : y.isFiniteNonzero = true) :
    (x / y).isNaN = false := by
  cases y with
  | nan | infinite => exact absurd hy (by simp [isFiniteNonzero])
  | finite t q =>
    cases x with
    | nan => exact absurd hx (by simp)
    | infinite s => rfl
    | finite s p =>
      have hq : q.val ≠ 0 := by simpa [isFiniteNonzero, isZero] using hy
      rw [div_finite s t p hq]
      exact not_isNaN_ofRank _ _

end Double

namespace Step

variable {step : Step} {x y : Double}

/-- A double goes through a step like a cell does, unless it would be divided by zero. -/
theorem run_ofDouble (x : Double) (hy : step.operand.toDouble = .ok y) (hzero : y.isZero = false) :
    step.run (.ofDouble x) = .ok (.ofDouble (step.onCell y x)) := by
  have hcombine : ∀ exact rounded (z : Scalar), z.toDouble = .ok y →
      Scalar.combine exact rounded (.double x) z = .ok (.double (rounded x y)) := by
    intro exact rounded z hz
    rw [Scalar.combine_double, hz]
    rfl
  have hnumber : step.onNumber (.double x) = .ok (.double (step.onCell y x)) := by
    cases step with
    | plus z => exact hcombine (· + ·) (· + ·) z hy
    | minus z => exact hcombine (· - ·) (· - ·) z hy
    | times z => exact hcombine (· * ·) (· * ·) z hy
    | dividedBy z =>
      rw [onNumber, Scalar.div_double_left, show z.toDouble = .ok y from hy]
      show (if y.isZero = true then _ else _) = _
      rw [if_neg (by simp [hzero])]
      rfl
  exact congrArg (Except.map Value.number) hnumber

/-- By a finite number that is not zero, no number becomes not-a-number. -/
theorem not_isNaN_onCell (step : Step) (hy : y.isFiniteNonzero = true) (hx : x.isNaN = false) :
    (step.onCell y x).isNaN = false := by
  have hfinite : y.isFinite = true := (Bool.and_eq_true_iff.1 hy).1
  cases step with
  | plus => exact Double.not_isNaN_add hx hfinite
  | minus => exact Double.not_isNaN_sub hx hfinite
  | times => exact Double.not_isNaN_mul hx hy
  | dividedBy => exact Double.not_isNaN_div hx hy

end Step

variable {steps : List Step}

/-- Doubles go through steps by finite numbers that are not zero, and numbers stay numbers. -/
theorem exists_runSteps_ofDouble (h : ∀ step ∈ steps, step.operand.isUsable = true) (x : Double) :
    ∃ y : Double, runSteps steps (.ofDouble x) = .ok (.ofDouble y) ∧
      (x.isNaN = false → y.isNaN = false) := by
  induction steps generalizing x with
  | nil => exact ⟨x, rfl, id⟩
  | cons step steps ih =>
    obtain ⟨hstep, hsteps⟩ := List.forall_mem_cons.1 h
    obtain ⟨z, hz, husable⟩ := Scalar.exists_toDouble_of_isUsable hstep
    have hzero : z.isZero = false := Bool.not_eq_true' _ ▸ (Bool.and_eq_true_iff.1 husable).2
    obtain ⟨y, hy, hkeeps⟩ := ih hsteps (step.onCell z x)
    refine ⟨y, ?_, fun hx ↦ hkeeps (step.not_isNaN_onCell husable hx)⟩
    rw [runSteps, List.foldlM_cons, Step.run_ofDouble x hz hzero]
    exact hy

/-- Every double goes through the map, and one becomes a number. -/
structure TakesDoubles (map : ValueMap) : Prop where
  total : ∀ x : Double, ∃ result, map.run (.ofDouble x) = .ok result
  not_isNaN : ∀ {result : Value}, map.run (.ofDouble 1) = .ok result →
    Converter.isNaN result = false

theorem takesDoubles_ofSteps (h : ∀ step ∈ steps, step.operand.isUsable = true) :
    TakesDoubles (.ofSteps steps) where
  total x := by
    obtain ⟨y, hy, -⟩ := exists_runSteps_ofDouble h x
    exact ⟨_, hy⟩
  not_isNaN hresult := by
    obtain ⟨y, hy, hkeeps⟩ := exists_runSteps_ofDouble h 1
    obtain rfl := Except.ok.inj (hy.symm.trans hresult)
    exact hkeeps (Double.not_isNaN_of_isFinite Double.isFinite_one)

/-! ### Units that are made of steps -/

/-- Both maps of the unit are made of steps by finite numbers that are not zero. -/
def NonlinearUnit.IsStepwise (unit : NonlinearUnit) : Prop :=
  ∀ direction : Direction, ∃ steps : List Step,
    direction.map unit = .ofSteps steps ∧ ∀ step ∈ steps, step.operand.isUsable = true

theorem NonlinearUnit.IsStepwise.takesDoubles {unit : NonlinearUnit} (h : unit.IsStepwise) :
    TakesDoubles unit.toInternal := by
  obtain ⟨steps, hmap, husable⟩ := h .toInternal
  rw [show unit.toInternal = .ofSteps steps from hmap]
  exact takesDoubles_ofSteps husable

/-- The symbols of the built-in nonlinear units. -/
theorem nonlinear_keys_builtIn :
    Registry.builtIn.nonlinear.keys = ["degC", "°C", "degF", "°F"] := by
  decide +kernel

theorem isStepwise_builtIn {symbol : RawText} {unit : NonlinearUnit}
    (h : Registry.builtIn.nonlinear? symbol = some unit) : unit.IsStepwise := by
  have hmem := Registry.mem_nonlinear_of_builtIn h
  rw [UnitTable.nonlinear, List.mem_cons, List.mem_singleton] at hmem
  rcases hmem with rfl | rfl <;> intro direction <;> cases direction
  all_goals exact ⟨_, rfl, by decide +kernel⟩

end Metrology
