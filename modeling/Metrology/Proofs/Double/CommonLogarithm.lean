import Mathlib.Analysis.SpecialFunctions.Log.Base
import Metrology.Proofs.Double.Order
import Metrology.Proofs.Double.Series

/-!
# The common logarithm

How near the logarithm that is computed in doubles comes to the common logarithm. It is rounded once
from a sum (`exists_lowSum`), whose large part is exact and whose small part has the errors of three
more roundings and those of the constants. All together the sum is within one in `2 ^ 53` of the
logarithm (`exists_sum_close`).

That decides on which side of a whole number the logarithm is. From a power of ten on it is not
below the exponent (`int_le_logTen`), since doubles below a whole number are sparse enough; the
whole numbers one and zero, below which they are denser, have an argument each. And it is below the
exponent for numbers that are 66 parts in `10 ^ 15` below the power (`logTen_lt_int`); nearer to the
power it need not be.
-/

namespace Metrology.Double

/-! ### The constants -/

/-- The constants of a logarithm, exactly. -/
theorem constants_eq :
    (recipLnTen.isFinite = true ∧ recipLnTen.toRat = 3911776933737095 / 2 ^ 53) ∧
      (logTwoLow.isFinite = true ∧ logTwoLow.toRat = 3658597174646171 / 2 ^ 93) ∧
        logTwoHigh.isFinite = true ∧ logTwoHigh.toRat = 661971961083 / 2 ^ 41 := by
  decide +kernel

/-- The natural logarithms of two and of ten, from the series. -/
theorem log_near :
    |Real.log 2 - 1113844574712631719546256151097547306333272293549090750737736 / 2 ^ 200| ≤
      1 / 2 ^ 190 ∧
    |Real.log 10 - 3700111586075757022815855548858213034251116522195805159045420 / 2 ^ 200| ≤
      1 / 2 ^ 188 := by
  have htwo := abs_lnValue_sub_log_le (by decide : 0 < 2 + 1) (by decide) (by decide)
  have hfour := abs_lnValue_sub_log_le (by decide : 0 < 5 + 4) (by decide) (by decide)
  rw [lnValue, show lnFixed 2 1 =
    1113844574712631719546256151097547306333272293549090750737736 from rfl] at htwo
  rw [lnValue, show lnFixed 5 4 =
    358577861937861864177087095565571115251299641548532906832212 from rfl] at hfour
  have hten : Real.log 10 = 3 * Real.log 2 + Real.log (5 / 4) := by
    rw [show (10 : ℝ) = 2 ^ 3 * (5 / 4) by norm_num, Real.log_mul (by norm_num) (by norm_num),
      Real.log_pow]
    norm_num
  rw [show twoTo seriesPlaces = 2 ^ 200 from rfl] at htwo hfour
  push_cast at htwo hfour
  rw [div_one] at htwo
  rw [hten]
  rw [abs_le] at htwo hfour ⊢
  rw [abs_le]
  norm_num at htwo hfour ⊢
  refine ⟨⟨by linarith, by linarith⟩, by linarith, by linarith⟩

theorem recipLnTen_near : |((recipLnTen.toRat : ℚ) : ℝ) - 1 / Real.log 10| ≤ 12 / 10 ^ 18 := by
  obtain ⟨-, hten⟩ := log_near
  rw [abs_le] at hten
  norm_num at hten
  have hpos : 0 < Real.log 10 := Real.log_pos (by norm_num)
  rw [constants_eq.1.2, ← mul_div_cancel_right₀ (((3911776933737095 / 2 ^ 53 : ℚ)) : ℝ) hpos.ne',
    ← sub_div, abs_div, abs_of_pos hpos, div_le_iff₀ hpos, abs_le]
  norm_num
  constructor <;> linarith

theorem logTwo_near :
    |((logTwoLow.toRat + logTwoHigh.toRat : ℚ) : ℝ) - Real.log 2 / Real.log 10| ≤ 1 / 2 ^ 92 := by
  obtain ⟨htwo, hten⟩ := log_near
  rw [abs_le] at htwo hten
  norm_num at htwo hten
  have hpos : 0 < Real.log 10 := Real.log_pos (by norm_num)
  rw [constants_eq.2.1.2, constants_eq.2.2.2,
    ← mul_div_cancel_right₀ ((3658597174646171 / 2 ^ 93 + 661971961083 / 2 ^ 41 : ℚ) : ℝ) hpos.ne',
    ← sub_div, abs_div, abs_of_pos hpos, div_le_iff₀ hpos, abs_le]
  norm_num
  constructor <;> linarith

/-! ### The sum of a logarithm -/

theorem RoundsTo.close {x : Double} {v : ℚ} (h : x.RoundsTo v) :
    |x.toRat - v| ≤ |v| / (2 ^ 53 - 1) + 1 / 2 ^ 200 := by
  refine h.abs_sub_le.trans (add_le_add_right ?_ _)
  rw [← twoTo_eq]
  exact one_div_le_one_div_of_le (by exact_mod_cast twoTo_pos 200)
    (by exact_mod_cast (twoTo_le (by decide) : twoTo 200 ≤ twoTo 1074))

theorem abs_le_of_close {a b δ : ℚ} (h : |a - b| ≤ δ) : |a| ≤ |b| + δ := by
  have htriangle := abs_add_le b (a - b)
  rw [add_sub_cancel] at htriangle
  linarith

/-- A number, its product and a sum with it, each rounded, where the other term of the sum is small:
what comes of the four roundings. -/
theorem abs_rounded_sum_sub_le {a v l first second total : ℚ}
    (hl : |l - v| ≤ |v| / (2 ^ 53 - 1) + 1 / 2 ^ 200)
    (hsecond : |second - 3911776933737095 / 2 ^ 53 * l| ≤
      |3911776933737095 / 2 ^ 53 * l| / (2 ^ 53 - 1) + 1 / 2 ^ 200)
    (hfirst : |first - a| ≤ |a| / (2 ^ 53 - 1) + 1 / 2 ^ 200)
    (htotal : |total - (first + second)| ≤ |first + second| / (2 ^ 53 - 1) + 1 / 2 ^ 200)
    (ha : |a| ≤ 4 / 10 ^ 10) : |total - (a + 3911776933737095 / 2 ^ 53 * v)| ≤
      13030 / 10000 / 2 ^ 53 * |v| + 1 / 2 ^ 82 := by
  obtain ⟨c, hc⟩ : ∃ c : ℚ, c = 3911776933737095 / 2 ^ 53 := ⟨_, rfl⟩
  have hpos : 0 ≤ c := by rw [hc]; norm_num
  rw [← hc] at hsecond ⊢
  have hsplit : total - (a + c * v) =
      (total - (first + second)) + (first - a) + ((second - c * l) + c * (l - v)) := by
    ring
  have htriangle := abs_add_le ((total - (first + second)) + (first - a))
    ((second - c * l) + c * (l - v))
  have hleft := abs_add_le (total - (first + second)) (first - a)
  have hright := abs_add_le (second - c * l) (c * (l - v))
  have hsum := abs_add_le first second
  have hlAbs := abs_le_of_close hl
  have hsecondAbs := abs_le_of_close hsecond
  have hfirstAbs := abs_le_of_close hfirst
  rw [abs_mul, abs_of_nonneg hpos] at hsecond hright hsecondAbs
  rw [hsplit]
  subst hc
  norm_num at *
  linarith [abs_nonneg v]

/-- The logarithm of a quotient that is not below one is not negative. -/
theorem lnValue_nonneg {num den : Nat} (hle : den ≤ num) : 0 ≤ lnValue num den := by
  have hfirst : 0 ≤ firstTerm num den :=
    Int.ediv_nonneg (mul_nonneg (by omega) (Int.natCast_nonneg _)) (Int.natCast_nonneg _)
  have hfixed := le_lnFixed hle
  exact div_nonneg (by exact_mod_cast (by omega : 0 ≤ lnFixed num den)) (Nat.cast_nonneg _)

section Sum

variable {shift : Int} {num den : Nat}

theorem toRat_ofInt (hshift : |shift| ≤ 1074) :
    (ofInt shift).isFinite = true ∧ (ofInt shift).toRat = shift := by
  have hsmall : |(shift : ℚ)| ≤ 1074 := by exact_mod_cast hshift
  have hrounds := roundsTo_ofInt (lt_twoTo_of_le (hsmall.trans (by norm_num)))
  refine ⟨hrounds.isFinite, ?_⟩
  have heq := RoundsTo.eq_div_twoTo (n := shift) (j := 0) (by simpa [twoTo] using hrounds)
    (by rw [abs_le] at hshift; rw [show twoTo 53 = 9007199254740992 from rfl]; omega) (by decide)
  simpa [twoTo] using heq

/-- The product of a count of binades with the high part of `log₁₀ 2` is exact. -/
theorem toRat_ofInt_mul_high (hshift : |shift| ≤ 1074) :
    (ofInt shift * logTwoHigh).isFinite = true ∧
      (ofInt shift * logTwoHigh).toRat = shift * logTwoHigh.toRat := by
  obtain ⟨hcount, hvalue⟩ := toRat_ofInt hshift
  obtain ⟨-, -, hhigh, hhigh'⟩ := constants_eq
  have hsmall : |(shift : ℚ)| ≤ 1074 := by exact_mod_cast hshift
  have hproduct : |(shift : ℚ) * (661971961083 / 2 ^ 41)| ≤ 2 ^ 12 := by
    rw [abs_mul, abs_of_pos (show (0 : ℚ) < 661971961083 / 2 ^ 41 by norm_num)]
    norm_num
    linarith
  have hrounds := roundsTo_mul hcount hhigh
    (by rw [hvalue, hhigh']; exact lt_twoTo_of_le hproduct)
  rw [hvalue] at hrounds
  refine ⟨hrounds.isFinite, ?_⟩
  have hexact : (shift : ℚ) * logTwoHigh.toRat =
      ((shift * 661971961083 : Int) : ℚ) / twoTo 41 := by
    rw [hhigh', twoTo_eq, Int.cast_mul, mul_div_assoc]
    norm_num
  rw [hexact] at hrounds ⊢
  rw [abs_le] at hshift
  exact hrounds.eq_div_twoTo (by rw [show twoTo 53 = 9007199254740992 from rfl]; omega) (by decide)

/-- The product of a count of binades with the low part of `log₁₀ 2` is small. -/
theorem roundsTo_ofInt_mul_low (hshift : |shift| ≤ 1074) :
    (ofInt shift * logTwoLow).RoundsTo (shift * logTwoLow.toRat) ∧
      |shift * logTwoLow.toRat| ≤ 4 / 10 ^ 10 := by
  obtain ⟨hcount, hvalue⟩ := toRat_ofInt hshift
  obtain ⟨-, ⟨hlow, hlow'⟩, -⟩ := constants_eq
  have hsmall : |(shift : ℚ)| ≤ 1074 := by exact_mod_cast hshift
  have hpart : |shift * logTwoLow.toRat| ≤ 4 / 10 ^ 10 := by
    rw [abs_mul, hlow']
    norm_num
    linarith
  rw [← hvalue] at hpart ⊢
  exact ⟨roundsTo_mul hcount hlow (lt_twoTo_of_le (hpart.trans (by norm_num))), hpart⟩

/-- The product of a natural logarithm with the reciprocal of the logarithm of ten. -/
theorem roundsTo_recip_mul_ln (hpos : 0 < num + den) (hnum : num ≤ 2 * den)
    (hden : den ≤ 2 * num) :
    (recipLnTen * ln num den).RoundsTo (recipLnTen.toRat * (ln num den).toRat) ∧
      |recipLnTen.toRat * (ln num den).toRat| ≤ 1 := by
  obtain ⟨⟨hrecip, hrecip'⟩, -⟩ := constants_eq
  have hln := roundsTo_ln hpos hnum hden
  have hproduct : |recipLnTen.toRat * (ln num den).toRat| ≤ 1 := by
    have hvalue := abs_lnValue_le hpos hnum hden
    have hbound := abs_le_of_close hln.close
    rw [abs_mul, hrecip']
    norm_num at hbound ⊢
    linarith
  exact ⟨roundsTo_mul hrecip hln.isFinite (lt_twoTo_of_le (hproduct.trans (by norm_num))), hproduct⟩

/-- The logarithm is rounded once from a sum, the small part of which has the errors of three more
roundings. -/
theorem exists_lowSum (hshift : |shift| ≤ 1074) (hpos : 0 < num + den) (hnum : num ≤ 2 * den)
    (hden : den ≤ 2 * num) : ∃ low : ℚ,
      (logSum shift num den).RoundsTo (low + shift * logTwoHigh.toRat) ∧
      |low - (shift * logTwoLow.toRat + recipLnTen.toRat * lnValue num den)| ≤
        13030 / 10000 / 2 ^ 53 * |lnValue num den| + 1 / 2 ^ 82 ∧
      (0 ≤ shift → den ≤ num → 0 ≤ low) := by
  obtain ⟨hhigh, hhigh'⟩ := toRat_ofInt_mul_high hshift
  obtain ⟨hcountLow, hpart⟩ := roundsTo_ofInt_mul_low hshift
  obtain ⟨hproduct, hproductAbs⟩ := roundsTo_recip_mul_ln hpos hnum hden
  have hln := roundsTo_ln hpos hnum hden
  have hcountAbs := hcountLow.abs_le_natCast (n := 1) (by decide) (hpart.trans (by norm_num))
  have hproductAbs' := hproduct.abs_le_natCast (n := 1) (by decide) (by exact_mod_cast hproductAbs)
  -- the sum of the small parts
  have hsumAbs : |(ofInt shift * logTwoLow).toRat + (recipLnTen * ln num den).toRat| ≤ (2 : ℕ) :=
    (abs_add_le _ _).trans (by push_cast at *; linarith)
  have hsum := roundsTo_add hcountLow.isFinite hproduct.isFinite
    (lt_twoTo_of_le (hsumAbs.trans (by norm_num)))
  refine ⟨(ofInt shift * logTwoLow + recipLnTen * ln num den).toRat, ?_, ?_, fun hzero hle ↦ ?_⟩
  · rw [← hhigh']
    refine roundsTo_add hsum.isFinite hhigh (lt_twoTo_of_le ?_)
    have hsmall : |(shift : ℚ)| ≤ 1074 := by exact_mod_cast hshift
    have hhighAbs : |shift * logTwoHigh.toRat| ≤ 400 := by
      rw [abs_mul, constants_eq.2.2.2]
      norm_num
      linarith
    have hlowAbs := hsum.abs_le_natCast (by decide) hsumAbs
    rw [hhigh']
    refine (abs_add_le _ _).trans ?_
    push_cast at hlowAbs
    linarith
  · have hproductClose := hproduct.close
    rw [constants_eq.1.2] at hproductClose ⊢
    exact abs_rounded_sum_sub_le hln.close hproductClose hcountLow.close hsum.close hpart
  · have hlow : 0 ≤ logTwoLow.toRat := by
      rw [constants_eq.2.1.2]
      norm_num
    have hrecip : 0 ≤ recipLnTen.toRat := by
      rw [constants_eq.1.2]
      norm_num
    exact hsum.nonneg (add_nonneg (hcountLow.nonneg (mul_nonneg (by exact_mod_cast hzero) hlow))
      (hproduct.nonneg (mul_nonneg hrecip (hln.nonneg (lnValue_nonneg hle)))))

end Sum

/-! ### The common logarithm -/

/-- The value of a magnitude. -/
theorem nearOne_value {rank : Nat} : (unitsOfRank rank / one : ℝ) =
    (nearOne rank).1 / (nearOne rank).2 * 2 ^ binadeShift rank := by
  have hone : (one : ℝ) ≠ 0 := by exact_mod_cast (twoTo_pos 1074).ne'
  have htwo : ∀ n : Nat, (twoTo n : ℝ) = 2 ^ (n : Int) := fun n ↦ by
    rw [twoTo, Nat.pow_eq, zpow_natCast, Nat.cast_pow, Nat.cast_ofNat]
  rw [nearOne]
  split
  · next hnonneg =>
    rw [Nat.cast_mul, htwo, Int.toNat_of_nonneg hnonneg]
    field_simp
  · next hneg =>
    rw [Nat.cast_mul, htwo, Int.toNat_of_nonneg (by omega), mul_div_right_comm, mul_assoc,
      ← zpow_add₀ two_ne_zero, neg_add_cancel, zpow_zero, mul_one]

section LogTen

variable (negative : Bool) {rank : Fin rankCount}

theorem abs_binadeShift_le (rank : Fin rankCount) : |binadeShift rank| ≤ 1074 := by
  obtain ⟨hlow, hhigh⟩ := binadeShift_bounds rank
  rw [abs_le]
  omega

theorem nearOne_bounds' (hrank : rank.val ≠ 0) : 0 < (nearOne rank).1 ∧ 0 < (nearOne rank).2 ∧
    (nearOne rank).1 ≤ 2 * (nearOne rank).2 ∧ (nearOne rank).2 ≤ 2 * (nearOne rank).1 := by
  obtain ⟨hpos, hbounds⟩ := nearOne_bounds hrank
  split at hbounds <;> omega

/-- The logarithm of a magnitude from its count of binades. -/
theorem log_value (hrank : rank.val ≠ 0) : Real.log (unitsOfRank rank / one) =
    Real.log ((nearOne rank).1 / (nearOne rank).2) + binadeShift rank * Real.log 2 := by
  obtain ⟨hnum, hden, -⟩ := nearOne_bounds' hrank
  have hratio : (0 : ℝ) < (nearOne rank).1 / (nearOne rank).2 :=
    div_pos (by exact_mod_cast hnum) (by exact_mod_cast hden)
  rw [nearOne_value, Real.log_mul hratio.ne' (zpow_pos two_pos _).ne', Real.log_zpow]

/-- The errors of a sum of a logarithm: of its small part, of the constants and of the series. -/
theorem abs_log_sum_sub_le {low shift twoLow twoHigh two recip unit series ratio : ℝ}
    (hlow : |low - (shift * twoLow + recip * series)| ≤
      13030 / 10000 / 2 ^ 53 * |series| + 1 / 2 ^ 82)
    (hshift : |shift| ≤ 1074) (htwo : |twoLow + twoHigh - two| ≤ 1 / 2 ^ 92) (hrecip : |recip| ≤ 1)
    (hunit : |recip - unit| ≤ 12 / 10 ^ 18) (hseries : |series - ratio| ≤ 1 / 2 ^ 190) :
    |low + shift * twoHigh - (unit * ratio + shift * two)| ≤
      142 / 100 / 2 ^ 53 * |ratio| + 1 / 2 ^ 79 := by
  have hsplit : low + shift * twoHigh - (unit * ratio + shift * two) =
      (low - (shift * twoLow + recip * series)) + shift * (twoLow + twoHigh - two) +
        (recip * (series - ratio) + (recip - unit) * ratio) := by
    ring
  have htriangle := abs_add_le
    ((low - (shift * twoLow + recip * series)) + shift * (twoLow + twoHigh - two))
    (recip * (series - ratio) + (recip - unit) * ratio)
  have hleft := abs_add_le (low - (shift * twoLow + recip * series))
    (shift * (twoLow + twoHigh - two))
  have hright := abs_add_le (recip * (series - ratio)) ((recip - unit) * ratio)
  have hfirst : |shift * (twoLow + twoHigh - two)| ≤ 1074 * (1 / 2 ^ 92) := by
    rw [abs_mul]
    exact mul_le_mul hshift htwo (abs_nonneg _) (by norm_num)
  have hsecond : |recip * (series - ratio)| ≤ 1 * (1 / 2 ^ 190) := by
    rw [abs_mul]
    exact mul_le_mul hrecip hseries (abs_nonneg _) (by norm_num)
  have hthird : |(recip - unit) * ratio| ≤ 12 / 10 ^ 18 * |ratio| := by
    rw [abs_mul]
    exact mul_le_mul_of_nonneg_right hunit (abs_nonneg _)
  have hseriesAbs := abs_add_le ratio (series - ratio)
  rw [add_sub_cancel] at hseriesAbs
  rw [hsplit]
  norm_num at *
  linarith [abs_nonneg ratio]

/-- The sum from which a common logarithm is rounded is near the logarithm. -/
theorem exists_sum (hrank : rank.val ≠ 0) : ∃ sum : ℚ,
    (finite negative rank).logTen.RoundsTo sum ∧
      |(sum : ℝ) - Real.log (unitsOfRank rank / one) / Real.log 10| ≤
        142 / 100 / 2 ^ 53 * |Real.log ((nearOne rank).1 / (nearOne rank).2)| + 1 / 2 ^ 79 ∧
      (0 ≤ binade rank → 0 ≤ sum) := by
  obtain ⟨hnum, hden, hle, hle'⟩ := nearOne_bounds' hrank
  have hshift := abs_binadeShift_le rank
  obtain ⟨low, hrounds, hlow, hnonneg⟩ := exists_lowSum hshift (Nat.add_pos_left hnum _) hle hle'
  refine ⟨_, logTen_eq negative hrank ▸ hrounds, ?_, fun hbinade ↦ ?_⟩
  · have hlow' := (Rat.cast_le (K := ℝ)).2 hlow
    have htwo := logTwo_near
    have hrecip : |((recipLnTen.toRat : ℚ) : ℝ)| ≤ 1 := by
      rw [constants_eq.1.2]
      norm_num
    push_cast at hlow' htwo ⊢
    rw [log_value hrank, add_div, mul_div_assoc, ← one_div_mul_eq_div (Real.log 10)]
    exact abs_log_sum_sub_le hlow' (by exact_mod_cast hshift) htwo hrecip recipLnTen_near
      (abs_lnValue_sub_log_le (Nat.add_pos_left hnum _) hle hle')
  · obtain ⟨-, hbounds⟩ := nearOne_bounds hrank
    have hshift' : 0 ≤ binadeShift rank := by
      rw [binadeShift, if_neg (by omega)]
      exact hbinade
    rw [if_neg (by omega)] at hbounds
    refine add_nonneg (hnonneg hshift' hbounds.1) (mul_nonneg (by exact_mod_cast hshift') ?_)
    rw [constants_eq.2.2.2]
    norm_num

/-- The sum is within one in `2 ^ 53` of the logarithm. -/
theorem exists_sum_close (hrank : rank.val ≠ 0) : ∃ sum : ℚ,
    (finite negative rank).logTen.RoundsTo sum ∧
      |(sum : ℝ) - Real.log (unitsOfRank rank / one) / Real.log 10| < 1 / 2 ^ 53 := by
  obtain ⟨sum, hrounds, hclose, -⟩ := exists_sum negative hrank
  obtain ⟨hnum, hden, hle, hle'⟩ := nearOne_bounds' hrank
  have hnum' : (0 : ℝ) < (nearOne rank).1 := by exact_mod_cast hnum
  have hden' : (0 : ℝ) < (nearOne rank).2 := by exact_mod_cast hden
  have hupper : ((nearOne rank).1 / (nearOne rank).2 : ℝ) ≤ 2 := by
    rw [div_le_iff₀ hden']
    exact_mod_cast hle
  have hlower : (2 : ℝ)⁻¹ ≤ (nearOne rank).1 / (nearOne rank).2 := by
    rw [inv_eq_one_div, div_le_div_iff₀ two_pos hden', one_mul, mul_comm]
    exact_mod_cast hle'
  have hratio : |Real.log ((nearOne rank).1 / (nearOne rank).2)| ≤ Real.log 2 := by
    rw [abs_le, ← Real.log_inv]
    exact ⟨Real.log_le_log (by norm_num) hlower, Real.log_le_log (div_pos hnum' hden') hupper⟩
  have htwo := (abs_le.1 log_near.1).2
  refine ⟨sum, hrounds, hclose.trans_lt ?_⟩
  norm_num at htwo ⊢
  linarith

end LogTen

/-! ### Rounding next to a whole number -/

variable {x : Double} {v : ℚ} {K : Int}

/-- The whole numbers that exponents can be are doubles. -/
theorem exists_toRat_eq_int (hK : |K| ≤ 400) : ∃ y : Double, y.isFinite = true ∧ y.toRat = K := by
  rw [abs_le] at hK
  obtain ⟨y, hy, heq⟩ := exists_toRat_eq (n := K) (j := 0)
    (by rw [show twoTo 53 = 9007199254740992 from rfl]; omega) (by decide)
  exact ⟨y, hy, by rw [heq, show twoTo 0 = 1 from rfl, Nat.cast_one, div_one]⟩

/-- What is less than half a step below a whole number is not rounded to less. -/
theorem RoundsTo.int_le (h : x.RoundsTo v) (hK : |K| ≤ 400) {j : Nat} (hj : j ≤ 1074)
    (hlarge : (2 ^ 52 / 2 ^ j : ℚ) ≤ K - 1 / 2 ^ j ∨ (2 ^ 52 / 2 ^ j : ℚ) ≤ -K)
    (hclose : (K : ℚ) - 1 / 2 ^ (j + 1) < v) : K ≤ x.toRat := by
  by_contra hlt
  rw [not_le] at hlt
  obtain ⟨y, hy, heq⟩ := exists_toRat_eq_int hK
  have hv : v < K := by
    by_contra hge
    have hmono := h.ge_of_ge hy (by rw [heq]; exact not_lt.1 hge)
    rw [heq] at hmono
    exact absurd hlt (not_lt.2 hmono)
  have hstep : (1 : ℚ) / 2 ^ (j + 1) = 1 / 2 ^ j / 2 := by
    rw [pow_succ, div_div]
  -- so the result lies in the step below the whole number
  have hnear : (K : ℚ) - 1 / 2 ^ j < x.toRat := by
    have hnearest := h.isNearest.abs_sub_le y hy
    rw [heq, abs_of_pos (show (0 : ℚ) < K - v by linarith)] at hnearest
    linarith [neg_abs_le (x.toRat - v)]
  have hsize : (twoTo 52 / twoTo j : ℚ) ≤ |x.toRat| := by
    rw [twoTo_eq, twoTo_eq]
    rcases hlarge with hpos | hneg
    · exact (hpos.trans hnear.le).trans (le_abs_self _)
    · exact hneg.trans ((neg_le_neg hlt.le).trans (neg_le_abs _))
  -- but no whole number of steps lies there
  obtain ⟨n, hn⟩ := exists_eq_div_twoTo hj h.isFinite hsize
  have hpow : (0 : ℚ) < 2 ^ j := by positivity
  rw [hn, twoTo_eq] at hlt hnear
  rw [div_lt_iff₀ hpow] at hlt
  rw [lt_div_iff₀ hpow, sub_mul, one_div_mul_cancel hpow.ne'] at hnear
  have hupper : n < K * 2 ^ j := by exact_mod_cast hlt
  have hlower : K * 2 ^ j - 1 < n := by exact_mod_cast hnear
  omega

/-- What is more than half a step below a whole number is rounded to less. -/
theorem RoundsTo.lt_int (h : x.RoundsTo v) (hK : |K| ≤ 400) (hfar : v < (K : ℚ) - 1 / 2 ^ 45) :
    x.toRat < K := by
  by_contra hge
  rw [not_lt] at hge
  rw [abs_le] at hK
  obtain ⟨y, hy, heq⟩ := exists_toRat_eq (n := K * 2 ^ 44 - 1) (j := 44)
    (by rw [show twoTo 53 = 9007199254740992 from rfl]; omega) (by decide)
  have hbelow : y.toRat = K - 1 / 2 ^ 44 := by
    rw [heq, twoTo_eq]
    push_cast
    ring
  rcases le_or_gt v y.toRat with hle | hgt
  · have hmono := h.le_of_le hy hle
    rw [hbelow] at hmono
    norm_num at hmono
    linarith
  · have hnearest := h.isNearest.abs_sub_le y hy
    rw [abs_of_neg (show y.toRat - v < 0 by linarith), hbelow] at hnearest
    have hgap := le_abs_self (x.toRat - v)
    norm_num at hnearest hfar
    linarith

/-! ### The logarithm next to a power of ten -/

section Powers

variable (negative : Bool) {rank : Fin rankCount}

theorem log_ten_pos : 0 < Real.log 10 := Real.log_pos (by norm_num)

/-- The highest bit of a magnitude between two powers of two. -/
theorem binade_eq {rank : Nat} {n : Nat} (hlow : twoTo n ≤ (unitsOfRank rank / one : ℝ))
    (hhigh : (unitsOfRank rank / one : ℝ) < twoTo (n + 1)) : binade rank = n := by
  have hone : (0 : ℝ) < one := by exact_mod_cast twoTo_pos 1074
  rw [le_div_iff₀ hone] at hlow
  rw [div_lt_iff₀ hone] at hhigh
  have hlow' : twoTo (n + 1074) ≤ unitsOfRank rank := by
    rw [twoTo_add]
    exact_mod_cast hlow
  have hhigh' : unitsOfRank rank < twoTo (n + 1074 + 1) := by
    rw [show n + 1074 + 1 = n + 1 + 1074 by omega, twoTo_add]
    exact_mod_cast hhigh
  have hlog : (unitsOfRank rank).log2 = n + 1074 :=
    (Nat.log2_eq_iff ((twoTo_pos _).trans_le hlow').ne').2 ⟨hlow', hhigh'⟩
  rw [binade, hlog]
  push_cast
  ring

theorem le_log_div {K : Int} {w : ℝ} (h : (10 : ℝ) ^ K ≤ w) :
    (K : ℝ) ≤ Real.log w / Real.log 10 := by
  rw [le_div_iff₀ log_ten_pos, ← Real.log_zpow]
  exact Real.log_le_log (zpow_pos (by norm_num) _) h

/-- From one on, a logarithm is not negative. -/
theorem zero_le_logTen (hrank : rank.val ≠ 0) (h : (1 : ℝ) ≤ unitsOfRank rank / one) :
    0 ≤ (finite negative rank).logTen.toRat := by
  obtain ⟨sum, hrounds, -, hnonneg⟩ := exists_sum negative hrank
  have hone : (0 : ℝ) < one := by exact_mod_cast twoTo_pos 1074
  rw [one_le_div hone] at h
  have hlog : 1074 ≤ (unitsOfRank rank).log2 := le_log2 (by exact_mod_cast h)
  exact hrounds.nonneg (hnonneg (by rw [binade]; omega))

/-- Next to ten the general estimate is too coarse for the half-step below one, but there the part
of the logarithm that has errors is small. -/
theorem exists_sum_next_to_ten (hrank : rank.val ≠ 0) (h : (10 : ℝ) ≤ unitsOfRank rank / one)
    (hlt : (unitsOfRank rank / one : ℝ) < 16) : ∃ sum : ℚ,
    (finite negative rank).logTen.RoundsTo sum ∧ ((1 - 1 / 2 ^ 54 : ℚ) : ℝ) < sum := by
  obtain ⟨sum, hrounds, hclose, -⟩ := exists_sum negative hrank
  refine ⟨sum, hrounds, ?_⟩
  have htwo := abs_le.1 log_near.1
  have hten := abs_le.1 log_near.2
  have hbinade : binade rank = 3 := binade_eq (n := 3)
    (le_trans (by rw [show twoTo 3 = 8 from rfl]; norm_num) h)
    (hlt.trans_le (by rw [show twoTo (3 + 1) = 16 from rfl]; norm_num))
  have hvalue := log_value hrank
  rw [show binadeShift rank = 3 by rw [binadeShift, hbinade]; rfl] at hvalue
  have hlog : Real.log 10 ≤ Real.log (unitsOfRank rank / one) :=
    Real.log_le_log (by norm_num) h
  have hratio : 0 ≤ Real.log ((nearOne rank).1 / (nearOne rank).2) := by
    push_cast at hvalue
    norm_num at htwo hten
    linarith
  rw [abs_of_nonneg hratio] at hclose
  generalize Real.log ((nearOne rank).1 / (nearOne rank).2) = ratio at *
  generalize Real.log (unitsOfRank rank / one) = logarithm at *
  have hgrowth : 1 + 4 / 10 * (logarithm - Real.log 10) ≤ logarithm / Real.log 10 := by
    rw [le_div_iff₀ log_ten_pos]
    norm_num at hten
    nlinarith
  have hlower := (abs_le.1 hclose).1
  push_cast at hvalue ⊢
  norm_num at htwo hten hlower ⊢
  linarith

/-- From sixteen on the sum is well above one. -/
theorem exists_sum_of_sixteen_le (hrank : rank.val ≠ 0) (h : (16 : ℝ) ≤ unitsOfRank rank / one) :
    ∃ sum : ℚ, (finite negative rank).logTen.RoundsTo sum ∧ (1 : ℝ) < sum := by
  obtain ⟨sum, hrounds, hclose⟩ := exists_sum_close negative hrank
  refine ⟨sum, hrounds, ?_⟩
  have htwo := abs_le.1 log_near.1
  have hten := abs_le.1 log_near.2
  have hlog : 4 * Real.log 2 ≤ Real.log (unitsOfRank rank / one) := by
    rw [show (4 : ℝ) = (4 : ℕ) by norm_num, ← Real.log_pow]
    exact Real.log_le_log (by norm_num) (le_trans (by norm_num) h)
  have hquotient : 11 / 10 ≤ Real.log (unitsOfRank rank / one) / Real.log 10 := by
    rw [le_div_iff₀ log_ten_pos]
    norm_num at htwo hten
    linarith
  have hlower := (abs_lt.1 hclose).1
  generalize Real.log (unitsOfRank rank / one) = logarithm at *
  norm_num at hlower
  linarith

/-- From ten on, a logarithm is at least one. -/
theorem one_le_logTen (hrank : rank.val ≠ 0) (h : (10 : ℝ) ≤ unitsOfRank rank / one) :
    1 ≤ (finite negative rank).logTen.toRat := by
  obtain ⟨sum, hrounds, hsum⟩ : ∃ sum : ℚ, (finite negative rank).logTen.RoundsTo sum ∧
      ((1 - 1 / 2 ^ 54 : ℚ) : ℝ) < sum := by
    rcases lt_or_ge (unitsOfRank rank / one : ℝ) 16 with hlt | hge
    · exact exists_sum_next_to_ten negative hrank h hlt
    · obtain ⟨sum, hrounds, hsum⟩ := exists_sum_of_sixteen_le negative hrank hge
      exact ⟨sum, hrounds, lt_trans (by norm_num) hsum⟩
  have hmono := hrounds.int_le (K := 1) (j := 53) (by decide) (by decide) (Or.inl (by norm_num))
    (by exact_mod_cast hsum)
  exact_mod_cast hmono

/-- Away from one the logarithm of a power of ten is not missed, nor that of a number that is a part
in `2 ^ 52` below it. -/
theorem int_le_logTen_of_near (hrank : rank.val ≠ 0) {K : Int} (hK : |K| ≤ 400)
    (hfar : 3 ≤ K ∨ K ≤ -2) (h : (1 - 1 / 2 ^ 52) * (10 : ℝ) ^ K ≤ unitsOfRank rank / one) :
    (K : ℚ) ≤ (finite negative rank).logTen.toRat := by
  obtain ⟨sum, hrounds, hclose⟩ := exists_sum_close negative hrank
  have hpart : (0 : ℝ) < 1 - 1 / 2 ^ 52 := by norm_num
  have hlog : K * Real.log 10 - 1 / 2 ^ 52 / (1 - 1 / 2 ^ 52) ≤
      Real.log (unitsOfRank rank / one) := by
    refine le_trans ?_ (Real.log_le_log (mul_pos hpart (zpow_pos (by norm_num) K)) h)
    rw [Real.log_mul hpart.ne' (zpow_pos (by norm_num) K).ne', Real.log_zpow]
    have hbound := Real.one_sub_inv_le_log_of_pos hpart
    norm_num at hbound ⊢
    linarith
  have hlower := (abs_lt.1 hclose).1
  generalize Real.log (unitsOfRank rank / one) = logarithm at hlog hlower
  have hquotient : K - 1 / 2 ^ 53 ≤ logarithm / Real.log 10 := by
    have hten := (abs_le.1 log_near.2).1
    rw [le_div_iff₀ log_ten_pos, sub_mul]
    norm_num at hten hlog ⊢
    linarith
  refine hrounds.int_le hK (j := 51) (by decide) ?_ ?_
  · rcases hfar with hpos | hneg
    · have hpos' : (3 : ℚ) ≤ K := by exact_mod_cast hpos
      exact Or.inl (by norm_num; linarith)
    · have hneg' : (K : ℚ) ≤ -2 := by exact_mod_cast hneg
      exact Or.inr (by norm_num; linarith)
  · refine (Rat.cast_lt (K := ℝ)).1 ?_
    push_cast
    norm_num at hquotient hlower ⊢
    linarith

/-- From a power of ten on, the logarithm is not below its exponent. -/
theorem int_le_logTen (hrank : rank.val ≠ 0) {K : Int} (hK : |K| ≤ 400)
    (h : (10 : ℝ) ^ K ≤ unitsOfRank rank / one) :
    (K : ℚ) ≤ (finite negative rank).logTen.toRat := by
  by_cases hfar : 3 ≤ K ∨ K ≤ -2
  · refine int_le_logTen_of_near negative hrank hK hfar (le_trans ?_ h)
    exact mul_le_of_le_one_left (zpow_pos (by norm_num) K).le (by norm_num)
  · obtain ⟨sum, hrounds, hclose⟩ := exists_sum_close negative hrank
    have hlower := (abs_lt.1 hclose).1
    have hlog := le_log_div h
    generalize Real.log (unitsOfRank rank / one) / Real.log 10 = logarithm at hlog hlower
    have hsum : (K : ℚ) - 1 / 2 ^ (52 + 1) < sum := by
      refine (Rat.cast_lt (K := ℝ)).1 ?_
      push_cast
      norm_num at hlower ⊢
      linarith
    obtain rfl | rfl | rfl | rfl : K = 0 ∨ K = 1 ∨ K = 2 ∨ K = -1 := by omega
    · exact_mod_cast zero_le_logTen negative hrank (by rwa [zpow_zero] at h)
    · exact_mod_cast one_le_logTen negative hrank (by rwa [zpow_one] at h)
    · exact hrounds.int_le hK (j := 52) (by decide) (Or.inl (by norm_num)) hsum
    · exact hrounds.int_le hK (j := 52) (by decide) (Or.inr (by norm_num)) hsum

/-- Well below a power of ten the logarithm is below its exponent. -/
theorem logTen_lt_int (hrank : rank.val ≠ 0) {K : Int} (hK : |K| ≤ 400)
    (h : (unitsOfRank rank / one : ℝ) < (1 - 66 / 10 ^ 15) * 10 ^ K) :
    (finite negative rank).logTen.toRat < K := by
  obtain ⟨sum, hrounds, hclose⟩ := exists_sum_close negative hrank
  have hunits : (0 : ℝ) < unitsOfRank rank / one :=
    div_pos (by exact_mod_cast unitsOfRank_pos hrank) (by exact_mod_cast twoTo_pos 1074)
  have hpart : (0 : ℝ) < 1 - 66 / 10 ^ 15 := by norm_num
  have hlog : Real.log (unitsOfRank rank / one) ≤ K * Real.log 10 - 66 / 10 ^ 15 := by
    refine (Real.log_le_log hunits h.le).trans ?_
    rw [Real.log_mul hpart.ne' (zpow_pos (by norm_num) K).ne', Real.log_zpow]
    have hbound := Real.log_le_sub_one_of_pos hpart
    norm_num at hbound ⊢
    linarith
  have hupper := (abs_lt.1 hclose).2
  generalize Real.log (unitsOfRank rank / one) = logarithm at hlog hupper
  have hquotient : logarithm / Real.log 10 ≤ K - 1 / 2 ^ 45 - 1 / 2 ^ 53 := by
    have hten := (abs_le.1 log_near.2).2
    rw [div_le_iff₀ log_ten_pos, sub_mul, sub_mul]
    norm_num at hten hlog ⊢
    linarith
  refine hrounds.lt_int hK ((Rat.cast_lt (K := ℝ)).1 ?_)
  push_cast
  norm_num at hquotient hupper ⊢
  linarith

end Powers

end Metrology.Double
