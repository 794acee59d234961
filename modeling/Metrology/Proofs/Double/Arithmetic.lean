import Mathlib.Algebra.Order.Ring.Abs
import Mathlib.Data.Rat.Floor
import Metrology.Proofs.Double.Decimal

/-!
# Arithmetic of doubles

The result of an operation on finite doubles is the double that the exact result is rounded to
(`Double.RoundsTo`), as long as the exact result is not too large. So it is the exact one but for a
part in `2 ^ 52` and one unit of `2 ^ (-1074)` (`Double.Approximates`). What follows about
logarithms and powers of ten rests on this alone, and no operation is taken apart again.
-/

namespace Metrology.Double

/-! ### Signs -/

/-- The factor that a sign stands for. -/
def sign (negative : Bool) : ℚ := if negative then -1 else 1

theorem abs_sign (negative : Bool) : |sign negative| = 1 := by
  cases negative <;> simp [sign]

theorem sign_bne (s t : Bool) : sign (s != t) = sign s * sign t := by
  cases s <;> cases t <;> simp [sign]

theorem signedUnits_eq (negative : Bool) (rank : Nat) :
    (signedUnits negative rank : ℚ) = sign negative * unitsOfRank rank := by
  cases negative <;> simp [signedUnits, sign]

theorem toRat_finite (negative : Bool) (rank : Fin rankCount) :
    (finite negative rank).toRat = sign negative * (unitsOfRank rank / one) := by
  rw [toRat, signedUnits_eq, mul_div_assoc]

theorem abs_toRat_finite (negative : Bool) (rank : Fin rankCount) :
    |(finite negative rank).toRat| = unitsOfRank rank / one := by
  rw [toRat_finite, abs_mul, abs_sign, one_mul, abs_of_nonneg (div_nonneg (Nat.cast_nonneg _)
    one_pos'.le)]

theorem eq_sign_mul_natAbs (n : Int) : (n : ℚ) = sign (n < 0) * n.natAbs := by
  rw [sign, Nat.cast_natAbs]
  rcases lt_or_ge n 0 with hneg | hnonneg
  · rw [decide_eq_true hneg, if_pos rfl, abs_of_neg hneg]
    push_cast
    ring
  · rw [decide_eq_false (not_lt.2 hnonneg), if_neg (by simp), abs_of_nonneg hnonneg, one_mul]

/-! ### Rounded results -/

/-- A finite double is what a number is rounded to: the number has the same sign, and its magnitude
lies in the cell of the rank. -/
def RoundsTo (x : Double) (v : ℚ) : Prop :=
  ∃ negative rank, x = finite negative rank ∧
    ∃ magnitude : ℚ, 0 ≤ magnitude ∧ v = sign negative * magnitude ∧ Cell rank (magnitude * one)

/-- A finite double is what a number is rounded to, up to a part in `2 ^ 52` and one unit. -/
structure Approximates (x : Double) (v : ℚ) : Prop where
  isFinite : x.isFinite = true
  abs_sub_le : |x.toRat - v| ≤ |v| / 2 ^ 52 + 1 / one

/-- The magnitude of a cell approximates the numbers in the cell. -/
theorem Cell.abs_sub_le_units {rank : Nat} {units : ℚ} (h : Cell rank units) (hunits : 0 ≤ units) :
    |unitsOfRank rank - units| ≤ units / 2 ^ 52 + 1 := by
  have hclose := h.abs_sub_le
  rw [twoTo_eq] at hclose
  have hbelow := (abs_le.1 hclose).2
  norm_num at hclose hbelow ⊢
  refine hclose.trans ?_
  linarith

/-- The distance of a magnitude from a number, in units and as it is. -/
theorem abs_unitsOfRank_sub_div_one (rank : Nat) (magnitude : ℚ) :
    |(unitsOfRank rank : ℚ) / one - magnitude| =
      |unitsOfRank rank - magnitude * one| / one := by
  have hone := one_pos'
  rw [← abs_of_pos hone, ← abs_div, abs_of_pos hone, sub_div, mul_div_cancel_right₀ _ hone.ne']

theorem RoundsTo.isFinite {x : Double} {v : ℚ} (h : x.RoundsTo v) : x.isFinite = true := by
  obtain ⟨-, -, rfl, -⟩ := h
  rfl

/-- Rounding approximates. -/
theorem RoundsTo.approximates {x : Double} {v : ℚ} (h : x.RoundsTo v) : x.Approximates v := by
  obtain ⟨negative, rank, rfl, magnitude, hnonneg, rfl, hcell⟩ := h
  have hone := one_pos'
  refine ⟨rfl, ?_⟩
  have hunits := div_le_div_of_nonneg_right
    (hcell.abs_sub_le_units (mul_nonneg hnonneg hone.le)) hone.le
  rw [toRat_finite, ← mul_sub, abs_mul, abs_mul, abs_sign, one_mul, one_mul, abs_of_nonneg hnonneg]
  calc |(unitsOfRank rank : ℚ) / one - magnitude|
      = |unitsOfRank rank - magnitude * one| / one := abs_unitsOfRank_sub_div_one _ _
    _ ≤ (magnitude * one / 2 ^ 52 + 1) / one := hunits
    _ = magnitude / 2 ^ 52 + 1 / one := by field_simp

/-- What is below the limit is rounded to a double. -/
theorem roundsTo_nearest_of_lt_limit (negative : Bool) {num den : Nat} (hden : 0 < den)
    (hlimit : (num : ℚ) / den / one < limit) :
    (nearest negative num den).RoundsTo (sign negative * (num / den / one)) := by
  have hone := one_pos'
  have hden' : (0 : ℚ) < den := by exact_mod_cast hden
  have hcell := cell_nearestRank num hden
  have hrank : nearestRank num den < rankCount := by
    by_contra hge
    have hle := hcell.rankCount_le_iff.1 (Nat.le_of_not_lt hge)
    rw [← le_div_iff₀ hone] at hle
    exact absurd hlimit (not_lt.2 hle)
  refine ⟨negative, ⟨_, hrank⟩, dif_pos hrank, _,
    div_nonneg (div_nonneg (Nat.cast_nonneg _) hden'.le) hone.le, rfl, ?_⟩
  rwa [div_mul_cancel₀ _ hone.ne']

theorem twoTo_lt_limit : (twoTo 1023 : ℚ) < limit := by
  rw [limit, Nat.cast_lt]
  have htop : twoTo 1024 = twoTo 1023 * 2 := twoTo_succ 1023
  have hgap : twoTo 970 < twoTo 1023 := twoTo_lt (by decide)
  omega

theorem roundsTo_nearest (negative : Bool) {num den : Nat} (hden : 0 < den)
    (hsmall : (num : ℚ) / den / one < twoTo 1023) :
    (nearest negative num den).RoundsTo (sign negative * (num / den / one)) :=
  roundsTo_nearest_of_lt_limit negative hden (hsmall.trans twoTo_lt_limit)

/-! ### Operations -/

variable {x y : Double}

theorem mul_finite (s t : Bool) (p q : Fin rankCount) :
    finite s p * finite t q = nearest (s != t) (unitsOfRank p * unitsOfRank q) one := by
  show (finite s p).mul (finite t q) = _
  rw [mul]

theorem div_finite (s t : Bool) (p : Fin rankCount) {q : Fin rankCount} (hq : q.val ≠ 0) :
    finite s p / finite t q = nearest (s != t) (unitsOfRank p * one) (unitsOfRank q) := by
  show (finite s p).div (finite t q) = _
  rw [div, if_neg hq]

theorem add_finite (s t : Bool) (p q : Fin rankCount) :
    finite s p + finite t q =
      if signedUnits s p + signedUnits t q = 0 then signedZero (s && t)
      else nearest (signedUnits s p + signedUnits t q < 0)
        (signedUnits s p + signedUnits t q).natAbs 1 := rfl

theorem roundsTo_mul (hx : x.isFinite = true) (hy : y.isFinite = true)
    (hsmall : |x.toRat * y.toRat| < twoTo 1023) : (x * y).RoundsTo (x.toRat * y.toRat) := by
  cases x with
  | nan | infinite => exact absurd hx (by simp)
  | finite s p =>
    cases y with
    | nan | infinite => exact absurd hy (by simp)
    | finite t q =>
      have hproduct : (unitsOfRank p / one : ℚ) * (unitsOfRank q / one) =
          (unitsOfRank p * unitsOfRank q : ℕ) / one / one := by
        rw [Nat.cast_mul, div_mul_div_comm, div_div]
      rw [abs_mul, abs_toRat_finite, abs_toRat_finite, hproduct] at hsmall
      have hrounded := roundsTo_nearest (s != t) (twoTo_pos 1074) hsmall
      rw [mul_finite, toRat_finite, toRat_finite, mul_mul_mul_comm, ← sign_bne, hproduct]
      exact hrounded

theorem roundsTo_div (hx : x.isFinite = true) (hy : y.isFinite = true)
    (hzero : y.isZero = false) (hsmall : |x.toRat / y.toRat| < twoTo 1023) :
    (x / y).RoundsTo (x.toRat / y.toRat) := by
  cases x with
  | nan | infinite => exact absurd hx (by simp)
  | finite s p =>
    cases y with
    | nan | infinite => exact absurd hy (by simp)
    | finite t q =>
      have hq : q.val ≠ 0 := beq_eq_false_iff_ne.1 hzero
      have hone := one_pos'
      have hquotient : (unitsOfRank p / one : ℚ) / (unitsOfRank q / one) =
          (unitsOfRank p * one : ℕ) / unitsOfRank q / one := by
        rw [Nat.cast_mul, div_div_div_cancel_right₀ hone.ne', div_right_comm,
          mul_div_cancel_right₀ _ hone.ne']
      rw [abs_div, abs_toRat_finite, abs_toRat_finite, hquotient] at hsmall
      have hrounded := roundsTo_nearest (s != t) (unitsOfRank_pos hq) hsmall
      have hsigns : sign s / sign t = sign (s != t) := by
        cases s <;> cases t <;> simp [sign]
      rw [div_finite s t p hq, toRat_finite, toRat_finite, mul_div_mul_comm, hsigns, hquotient]
      exact hrounded

theorem roundsTo_add_of_lt_limit (hx : x.isFinite = true) (hy : y.isFinite = true)
    (hlimit : |x.toRat + y.toRat| < limit) : (x + y).RoundsTo (x.toRat + y.toRat) := by
  cases x with
  | nan | infinite => exact absurd hx (by simp)
  | finite s p =>
    cases y with
    | nan | infinite => exact absurd hy (by simp)
    | finite t q =>
      have hone := one_pos'
      have hsum : (finite s p).toRat + (finite t q).toRat =
          (signedUnits s p + signedUnits t q : ℤ) / one := by
        rw [toRat, toRat, ← add_div, Int.cast_add]
      rw [hsum] at hlimit ⊢
      rw [add_finite]
      generalize signedUnits s p + signedUnits t q = sum at hlimit ⊢
      have hmagnitude : (sum : ℚ) = sign (sum < 0) * (sum.natAbs / (1 : ℕ)) := by
        rw [Nat.cast_one, div_one]
        exact eq_sign_mul_natAbs sum
      split
      · next hzero =>
        refine ⟨s && t, _, rfl, 0, le_rfl, ?_, ?_⟩
        · rw [hzero, Int.cast_zero, zero_div, mul_zero]
        · rw [zero_mul]
          exact cell_zero le_rfl (by norm_num)
      · rw [hmagnitude, mul_div_assoc] at hlimit ⊢
        rw [abs_mul, abs_sign, one_mul] at hlimit
        exact roundsTo_nearest_of_lt_limit _ one_pos ((le_abs_self _).trans_lt hlimit)

theorem roundsTo_add (hx : x.isFinite = true) (hy : y.isFinite = true)
    (hsmall : |x.toRat + y.toRat| < twoTo 1023) : (x + y).RoundsTo (x.toRat + y.toRat) :=
  roundsTo_add_of_lt_limit hx hy (hsmall.trans twoTo_lt_limit)

/-- Only finite doubles have a finite product. -/
theorem isFinite_of_isFinite_mul (h : (x * y).isFinite = true) : x.isFinite = true := by
  change (x.mul y).isFinite = true at h
  cases x with
  | finite => rfl
  | nan => exact absurd h (by simp [mul])
  | infinite s =>
    cases y with
    | nan | infinite => exact absurd h (by simp [mul])
    | finite t b =>
      rw [mul] at h
      split at h <;> exact absurd h (by simp)

/-! ### Quotients and whole numbers -/

theorem roundsTo_ofQuotient (negative : Bool) {num den : Nat} (hden : 0 < den)
    (hsmall : (num : ℚ) / den < twoTo 1023) :
    (ofQuotient negative num den).RoundsTo (sign negative * (num / den)) := by
  have hvalue : ((num * one : ℕ) : ℚ) / den / one = num / den := by
    rw [Nat.cast_mul, div_right_comm, mul_div_cancel_right₀ _ one_pos'.ne']
  rw [← hvalue] at hsmall ⊢
  exact roundsTo_nearest negative hden hsmall

theorem roundsTo_ofInt {n : Int} (hsmall : |(n : ℚ)| < twoTo 1023) :
    (ofInt n).RoundsTo n := by
  have hmagnitude : ((n.natAbs : ℕ) : ℚ) / (1 : ℕ) = |(n : ℚ)| := by
    rw [Nat.cast_one, div_one, Nat.cast_natAbs, Int.cast_abs]
  have hvalue : (n : ℚ) = sign (n < 0) * (n.natAbs / (1 : ℕ)) := by
    rw [Nat.cast_one, div_one]
    exact eq_sign_mul_natAbs n
  rw [← hmagnitude] at hsmall
  rw [hvalue]
  exact roundsTo_ofQuotient _ one_pos hsmall

/-- The floor of a double is that of its value. -/
theorem floor_eq (hx : x.isFinite = true) : x.floor = .ok ⌊x.toRat⌋ := by
  cases x with
  | nan | infinite => exact absurd hx (by simp)
  | finite negative rank =>
    have hone : (0 : Int) ≤ one := Int.natCast_nonneg _
    rw [floor, toRat, Rat.floor_intCast_div_natCast, Int.fdiv_eq_ediv_of_nonneg _ hone]

end Metrology.Double
