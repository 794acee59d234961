import Metrology.Proofs.Double.Mantissa
import Metrology.Proofs.Rendering.Digits

/-!
# The exponent of a rounded number

The mantissa and the exponent that are shown of a number come from the number rounded to significant
digits. The exponent is computed by a logarithm, and just below a power of ten it may be the one of
the power.

* A rounded number is near its decimal (`Rounding.abs_rounded_sub_le_of_normal`). With the exponent
  of a power of ten it is below it only if it is the double nearest to it
  (`Rounding.le_or_roundsTo`).
* So it is not below the power of ten in use, or so little that few digits do not show it
  (`Rounding.tenPow_le_or`).
* To few digits its decimal is a number of the steps that go with the exponent
  (`Rounding.exists_steps_of_few`).

`ShowsNormalized` says what is to be shown, and how near to the number.
-/

namespace Metrology.Rendering

open Double

namespace Rounding

variable {x rounded : Double} {digits e e' : Int} {n : Nat} (h : Rounding x rounded digits e n)
  (hx : x.isFiniteNonzero = true) (he' : rounded.decimalExponent = .ok e')

include h

theorem abs_rounded_sub_le_half : |(|rounded.toRat|) - n * 10 ^ (e + 1 - digits)| ≤
    |rounded.toRat| / 2 ^ 53 + 1 / one / 2 := by
  have hhalf := h.roundsTo.abs_sub_le_half
  rwa [toRat_abs, abs_abs] at hhalf

include hx

theorem cast_steps_le : (n : ℚ) ≤ 10 ^ digits := by
  rw [← cast_ten_pow_toNat h.digits_pos]
  exact_mod_cast h.steps_le hx

include he'

/-- A rounded number is near its decimal. -/
theorem abs_rounded_sub_le_of_normal (hlow : -307 ≤ e') :
    |(|rounded.toRat|) - n * 10 ^ (e + 1 - digits)| ≤ 2 / 10 ^ 16 * |rounded.toRat| := by
  have hhalf := h.abs_rounded_sub_le_half
  have hunit := one_div_one_le_ten_zpow hlow
  have hlower := (decimalExponent_bounds_abs (h.isFiniteNonzero hx) he').2
  have hpow := ten_zpow_pos e'
  generalize (1 : ℚ) / one = unit at *
  norm_num at *
  linarith

/-- A rounded number just below a power of ten has the exponent of the power only if it is the
double nearest to the power. -/
theorem le_or_roundsTo (hexact : digits ≤ 13 ∨ ¬rounded.IsJustBelow) :
    10 ^ e' ≤ |rounded.toRat| ∨ digits ≤ 13 ∧ rounded.abs.RoundsTo (10 ^ e') := by
  rcases le_or_gt (10 ^ e') |rounded.toRat| with hle | hlt
  · exact Or.inl hle
  have hrounded := h.isFiniteNonzero hx
  have hlower := (decimalExponent_bounds_abs hrounded he').2
  have hpow := ten_zpow_pos e'
  have hfew := hexact.resolve_right (not_not_intro ⟨e', by linarith, hlt⟩)
  refine Or.inr ⟨hfew, ?_⟩
  rcases lt_or_ge e' (-310) with hsmall | hlarge
  · -- the power is less than half a unit away
    have hunits : 66 / 10 ^ 15 * (10 ^ e' * one) < (1 / 2 : ℚ) := by
      have hbound : (10 : ℚ) ^ (e' + 323) ≤ 10 ^ 12 := by
        rw [← zpow_natCast]
        exact zpow_le_zpow_right₀ (by norm_num) (by push_cast; omega)
      linarith [(ten_zpow_mul_one_bounds e').2]
    cases rounded with
    | nan | infinite => exact absurd hrounded (by simp [Double.isFiniteNonzero])
    | finite negative rank =>
      have hone := one_pos'
      rw [abs_toRat_finite] at hlt hlower
      rw [roundsTo_abs_iff hpow.le]
      refine cell_of_lt_half (mul_nonneg hpow.le hone.le) ?_
      rw [div_lt_iff₀ hone] at hlt
      rw [le_div_iff₀ hone] at hlower
      rw [abs_of_pos (by linarith)]
      linarith
  · -- the decimal is not below the power
    have hnear := h.abs_rounded_sub_le_half
    have hunit := half_unit_le hlarge
    refine h.roundsTo.of_between hlt.le
      (le_decimal_of_near hrounded he' hfew (h.cast_steps_le hx) (hnear.trans ?_))
    generalize (1 : ℚ) / one = unit at *
    norm_num at *
    linarith

/-- The decimal is below the power of ten after the exponent of the rounded number. -/
theorem value_lt (hlow : -307 ≤ e') : (n * 10 ^ (e + 1 - digits) : ℚ) < 10 ^ (e' + 1) := by
  by_contra hge
  rw [not_lt] at hge
  have hrounded := h.isFiniteNonzero hx
  have hpower := h.roundsTo.of_between (decimalExponent_bounds_abs hrounded he').1.le hge
  have hhigh : e' + 1 ≤ 308 := by
    by_contra hbeyond
    have hmono : (10 : ℚ) ^ ((309 : ℕ) : Int) ≤ 10 ^ (e' + 1) :=
      zpow_le_zpow_right₀ (by norm_num) (by push_cast; omega)
    linarith [hpower.lt_limit (ten_zpow_pos _).le, limit_le]
  have heq := exponent_of_roundsTo_zpow hrounded he' (by omega) hhigh hpower
  omega

/-- A rounded number is not below the power of ten in use, or so little that few digits do not show
it. -/
theorem tenPow_le_or (hexact : digits ≤ 13 ∨ ¬rounded.IsJustBelow) :
    (tenPow e').toRat ≤ |rounded.toRat| ∨
      digits ≤ 13 ∧ (1 - 1 / 10 ^ 15) * (tenPow e').toRat ≤ |rounded.toRat| := by
  have hhigh := (decimalExponent_bounds he').2
  rcases h.le_or_roundsTo hx he' hexact with hle | ⟨hfew, hrounds⟩
  · exact Or.inl (tenPow_le_of_le (Bool.and_eq_true_iff.1 (h.isFiniteNonzero hx)).1 hhigh hle)
  · rw [← toRat_abs]
    by_cases hraised : e' ∈ raisedPowers
    · obtain ⟨-, -, -, hnear, -⟩ := tenPow_exceptions.1 e' hraised
      exact Or.inr ⟨hfew, hrounds.toRat_unique (roundsTo_ofDecimal_one hhigh) ▸ hnear⟩
    · exact Or.inl (hrounds.toRat_unique (roundsTo_tenPow hhigh hraised)).ge

/-- The decimal in steps of the rounded number, and how near it is. -/
theorem exists_steps_of_few (hlow : -307 ≤ e') (hfew : digits ≤ 13) : ∃ m : Nat,
    (n * 10 ^ (e + 1 - digits) : ℚ) = m * 10 ^ (e' + 1 - digits) ∧
      (10 : ℚ) ^ e' ≤ m * 10 ^ (e' + 1 - digits) ∧
      (m * 10 ^ (e' + 1 - digits) + 10 ^ (e' + 1 - digits) : ℚ) ≤ 10 ^ (e' + 1) := by
  have hrounded := h.isFiniteNonzero hx
  have hnear := h.abs_rounded_sub_le_of_normal hx he' hlow
  have hupper := (decimalExponent_bounds_abs hrounded he').1
  have hpow := ten_zpow_pos e'
  have hnear' : |(|rounded.toRat|) - n * 10 ^ (e + 1 - digits)| ≤ 26 / 10 ^ 15 * 10 ^ e' := by
    rw [zpow_add_one₀ (by norm_num)] at hupper
    linarith
  have hn := h.cast_steps_le hx
  obtain ⟨m, hm, -⟩ := exists_steps_of_near hrounded he' hfew hn h.digits_pos hnear'
  have hlower := le_decimal_of_near hrounded he' hfew hn hnear'
  have hvalue := h.value_lt hx he' hlow
  rw [hm] at hlower hvalue
  have hpos : 0 < m := by
    rcases Nat.eq_zero_or_pos m with rfl | hpos
    · rw [Nat.cast_zero, zero_mul] at hlower
      linarith
    · exact hpos
  exact ⟨m, hm, hlower, mul_zpow_add_le hpos hvalue⟩

end Rounding

theorem bounds_of_not_isJustBelow {rounded : Double} {e : Int}
    (hrounded : rounded.isFiniteNonzero = true) (he : rounded.decimalExponent = .ok e)
    (hnot : ¬rounded.IsJustBelow) :
    10 ^ e ≤ |rounded.toRat| ∧ |rounded.toRat| ≤ (1 - 7 / 10 ^ 14) * 10 ^ (e + 1) := by
  obtain ⟨hupper, hlower⟩ := decimalExponent_bounds_abs hrounded he
  have hpow := ten_zpow_pos e
  refine ⟨?_, ?_⟩
  · by_contra hlt
    exact hnot ⟨e, by linarith, not_le.1 hlt⟩
  · by_contra hgt
    exact hnot ⟨e + 1, not_le.1 hgt, hupper⟩

/-! ### What is shown -/

/-- How large a part of a number what is shown of it may be off. The least powers of ten have few
bits, and there it is only known that the exponent is not another one. -/
def shownTolerance (x : Double) : ℚ :=
  if 10 ^ (-307 : Int) ≤ |x.toRat| then 1 / 10 ^ 11 else 2 / 3

/-- A text is a mantissa that is at least one and below a bound, and shows a number over a power of
ten. -/
def ShowsNormalized (text : String) (x : Double) (bound : ℚ) (exponent : Int) : Prop :=
  ∃ (d : Numeral) (magnitude : ℚ), d.Shows text x.isNegative magnitude ∧
    1 ≤ magnitude ∧ magnitude < bound ∧
    |magnitude * 10 ^ exponent - (|x.toRat|)| ≤ shownTolerance x * |x.toRat|

theorem le_shownTolerance_mul {x : Double} {error : ℚ} (h : error ≤ |x.toRat| / 10 ^ 11) :
    error ≤ shownTolerance x * |x.toRat| := by
  have hnonneg := abs_nonneg x.toRat
  rw [shownTolerance]
  split <;> linarith

end Metrology.Rendering
