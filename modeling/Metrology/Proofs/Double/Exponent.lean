import Mathlib.Data.Int.Log
import Metrology.Proofs.Double.CommonLogarithm
import Metrology.Proofs.Double.Scaling

/-!
# The exponent of the leading digit

A decimal exponent is the floor of a computed logarithm. It is the exponent of the leading digit,
but for numbers just below a power of ten, of which it may be that of the power
(`decimalExponent_bounds_abs`, `decimalExponent_eq_log`). A double that a power of ten is rounded to
has the exponent of this power, even where it lies below it (`exponent_of_roundsTo_zpow`).

These statements are all that renderings know of decimal exponents. How the logarithm is computed is
not used beyond this module, and another logarithm for which they hold would do as well.

Up to thirteen digits the exponent is the one that a decimal near the number has, so that the
decimal is among the steps that go with the exponent (`exists_steps_of_near`).
-/

namespace Metrology.Double

/-! ### The leading digit -/

theorem decimalExponent_spec (negative : Bool) {rank : Fin rankCount} (hrank : rank.val ≠ 0)
    {e : Int} (h : (finite negative rank).decimalExponent = .ok e) :
    (unitsOfRank rank / one : ℚ) < 10 ^ (e + 1) ∧
      (1 - 66 / 10 ^ 15) * 10 ^ e ≤ (unitsOfRank rank / one : ℚ) := by
  obtain ⟨hlow, hhigh⟩ := decimalExponent_bounds h
  rw [decimalExponent_eq negative hrank] at h
  obtain rfl := Except.ok.inj h
  constructor
  · by_contra hge
    rw [not_lt] at hge
    have hge' := (Rat.cast_le (K := ℝ)).2 hge
    push_cast at hge'
    have hle := int_le_logTen negative hrank (by rw [abs_le]; omega) hge'
    have hfloor := Int.le_floor.2 hle
    omega
  · by_contra hlt
    rw [not_le] at hlt
    have hlt' := (Rat.cast_lt (K := ℝ)).2 hlt
    push_cast at hlt'
    have hfloor := Int.floor_lt.2 (logTen_lt_int negative hrank (by rw [abs_le]; omega) hlt')
    omega

variable {x : Double} {e : Int}

/-- Less than 7 parts in `10 ^ 14` below a power of ten. -/
def IsJustBelow (x : Double) : Prop :=
  ∃ K : Int, (1 - 7 / 10 ^ 14) * 10 ^ K < |x.toRat| ∧ |x.toRat| < 10 ^ K

/-- **The decimal exponent of a number** is that of its leading digit, or one more next to a power
of ten: a number is below the power of ten after its decimal exponent, and not below that of its
decimal exponent by more than 66 parts in `10 ^ 15`. -/
theorem decimalExponent_bounds_abs (hx : x.isFiniteNonzero = true)
    (h : x.decimalExponent = .ok e) :
    |x.toRat| < 10 ^ (e + 1) ∧ (1 - 66 / 10 ^ 15) * 10 ^ e ≤ |x.toRat| := by
  cases x with
  | nan | infinite => exact absurd hx (by simp [isFiniteNonzero])
  | finite negative rank =>
    rw [abs_toRat_finite]
    exact decimalExponent_spec negative (by simpa [isFiniteNonzero, isZero] using hx) h

theorem exponent_ge_of_le {k : Int} (hx : x.isFiniteNonzero = true)
    (h : x.decimalExponent = .ok e) (hle : 10 ^ k ≤ |x.toRat|) : k ≤ e := by
  have hlt := hle.trans_lt (decimalExponent_bounds_abs hx h).1
  exact Int.lt_add_one_iff.1 ((zpow_lt_zpow_iff_right₀ (by norm_num : (1 : ℚ) < 10)).1 hlt)

theorem exponent_lt_of_lt {k : Int} (hx : x.isFiniteNonzero = true)
    (h : x.decimalExponent = .ok e) (hlt : |x.toRat| < (1 - 66 / 10 ^ 15) * 10 ^ k) : e < k := by
  have hpow := (decimalExponent_bounds_abs hx h).2.trans_lt hlt
  rw [mul_lt_mul_iff_right₀ (by norm_num)] at hpow
  exact (zpow_lt_zpow_iff_right₀ (by norm_num : (1 : ℚ) < 10)).1 hpow

/-- The decimal exponent is that of the leading digit, but for numbers just below a power of ten. -/
theorem decimalExponent_eq_log (hx : x.isFiniteNonzero = true) (h : x.decimalExponent = .ok e) :
    e = Int.log 10 |x.toRat| ∨ x.IsJustBelow ∧ e = Int.log 10 |x.toRat| + 1 := by
  have hpos := abs_toRat_pos hx
  obtain ⟨hhigh, hlow⟩ := decimalExponent_bounds_abs hx h
  rcases le_or_gt (10 ^ e) |x.toRat| with hle | hlt
  · refine Or.inl (le_antisymm ?_ ?_)
    · exact (Int.zpow_le_iff_le_log (by decide) hpos).1 (by exact_mod_cast hle)
    · exact Int.lt_add_one_iff.1 ((Int.lt_zpow_iff_log_lt (by decide) hpos).1
        (by exact_mod_cast hhigh))
  · have hpow : (0 : ℚ) < 10 ^ e := by positivity
    refine Or.inr ⟨⟨e, by linarith, hlt⟩, ?_⟩
    have hbelow : Int.log 10 |x.toRat| < e :=
      (Int.lt_zpow_iff_log_lt (by decide) hpos).1 (by exact_mod_cast hlt)
    have habove : e - 1 ≤ Int.log 10 |x.toRat| := by
      refine (Int.zpow_le_iff_le_log (by decide) hpos).1 ?_
      have hstep : (10 : ℚ) ^ (e - 1) = 10 ^ e / 10 := by
        rw [zpow_sub₀ (by norm_num), zpow_one]
      push_cast
      rw [hstep]
      linarith
    omega

/-! ### Powers of ten -/

theorem one_div_one_le_ten_zpow {K : Int} (hK : -307 ≤ K) :
    (1 : ℚ) / one ≤ 10 ^ K / 9007199254740994 := by
  have hpow : (10 : ℚ) ^ 16 ≤ 10 ^ (K + 323) := by
    rw [← zpow_natCast]
    exact zpow_le_zpow_right₀ (by norm_num) (by push_cast; omega)
  have hunits := (ten_zpow_mul_one_bounds K).1
  rw [div_le_div_iff₀ one_pos' (by norm_num)]
  norm_num at hpow
  linarith

/-- A double is near the number that is rounded to it, unless that is among the least. -/
theorem RoundsTo.abs_sub_le_of_ge {v : ℚ} {K : Int} (hK : -307 ≤ K) (hv : 10 ^ K ≤ v)
    (h : x.RoundsTo v) : |x.toRat - v| ≤ v / 2 ^ 52 := by
  have hpow := ten_zpow_pos K
  have hclose := h.abs_sub_le
  have hunit := one_div_one_le_ten_zpow hK
  rw [abs_of_pos (hpow.trans_le hv)] at hclose
  generalize (1 : ℚ) / one = unit at hclose hunit
  norm_num at hclose hunit ⊢
  linarith

/-- Half a unit is little next to a power of ten that is not among the very least. -/
theorem half_unit_le {K : Int} (hK : -310 ≤ K) : (1 : ℚ) / one / 2 ≤ 248 / 10 ^ 16 * 10 ^ K := by
  have hpow : (10 : ℚ) ^ 13 ≤ 10 ^ (K + 323) := by
    rw [← zpow_natCast]
    exact zpow_le_zpow_right₀ (by norm_num) (by push_cast; omega)
  have hunits := (ten_zpow_mul_one_bounds K).1
  rw [div_div, div_le_iff₀ (mul_pos one_pos' two_pos)]
  norm_num at hpow
  linarith

/-- The double nearest to a power of ten. -/
theorem roundsTo_ofDecimal_one {K : Int} (hK : K ≤ 308) :
    (ofDecimal false 1 K).RoundsTo (10 ^ K) := by
  have hrounds : (ofDecimal false 1 K).RoundsTo ((1 : ℕ) * 10 ^ K) :=
    roundsTo_ofDecimal (by simpa using ten_zpow_lt_limit hK)
  rwa [Nat.cast_one, one_mul] at hrounds

/-- A double that a power of ten is rounded to has its exponent. -/
theorem exponent_of_roundsTo_zpow {K : Int} (hx : x.isFiniteNonzero = true)
    (h : x.decimalExponent = .ok e) (hlow : -307 ≤ K) (hhigh : K ≤ 308)
    (hrounds : x.abs.RoundsTo (10 ^ K)) : e = K := by
  have hpow := ten_zpow_pos K
  have hnear := hrounds.abs_sub_le_of_ge hlow le_rfl
  rw [toRat_abs] at hnear
  obtain ⟨hnearLow, hnearHigh⟩ := abs_le.1 hnear
  have hle : e < K + 1 := exponent_lt_of_lt hx h (by
    rw [zpow_add_one₀ (by norm_num)]
    norm_num at hnearHigh ⊢
    linarith)
  refine le_antisymm (Int.lt_add_one_iff.1 hle) ?_
  by_contra hlt
  have hbelowPow : |x.toRat| < 10 ^ K :=
    (decimalExponent_bounds_abs hx h).1.trans_le (zpow_le_zpow_right₀ (by norm_num) (by omega))
  by_cases hfar : 3 ≤ K ∨ K ≤ -2
  · cases x with
    | nan | infinite => exact absurd hx (by simp [isFiniteNonzero])
    | finite negative rank =>
      have hrank : rank.val ≠ 0 := by simpa [isFiniteNonzero, isZero] using hx
      rw [abs_toRat_finite] at hnearLow
      have hnear' : (1 - 1 / 2 ^ 52) * (10 : ℚ) ^ K ≤ unitsOfRank rank / one := by linarith
      have hreal := (Rat.cast_le (K := ℝ)).2 hnear'
      push_cast at hreal
      have hlog := int_le_logTen_of_near negative hrank (by rw [abs_le]; omega) hfar hreal
      rw [decimalExponent_eq negative hrank] at h
      obtain rfl := Except.ok.inj h
      exact hlt (Int.le_floor.2 hlog)
  · -- the other powers are doubles, but for one tenth, which is rounded up
    rw [← toRat_abs, hrounds.toRat_unique (roundsTo_ofDecimal_one hhigh)] at hbelowPow
    exact absurd hbelowPow
      (not_lt.2 (tenPow_exceptions.2.1 K (by simp only [List.mem_cons]; omega)))

/-! ### Numbers near a decimal -/

theorem exists_natCast_eq_zpow {k : Int} (hk : 0 ≤ k) : ∃ p : Nat, (p : ℚ) = 10 ^ k := by
  obtain ⟨m, rfl⟩ := Int.eq_ofNat_of_zero_le hk
  refine ⟨10 ^ m, ?_⟩
  rw [zpow_natCast]
  push_cast
  rfl

/-- A number of places keeps whole numbers on their side. -/
theorem IsRounded.natCast_le_mul {n bound : Nat} {value : ℚ} {places : Int} (hplaces : 0 ≤ places)
    (h : IsRounded n (value / 10 ^ (-places))) (hle : bound ≤ value) :
    (bound : ℚ) ≤ n * 10 ^ (-places) := by
  obtain ⟨p, hp⟩ := exists_natCast_eq_zpow hplaces
  have hsteps : bound * p ≤ n := h.ge (by
    rw [zpow_neg, div_inv_eq_mul, ← hp, Nat.cast_mul]
    exact mul_le_mul_of_nonneg_right hle (Nat.cast_nonneg p))
  rw [zpow_neg, ← div_eq_mul_inv, le_div_iff₀ (ten_zpow_pos places), ← hp]
  exact_mod_cast hsteps

theorem IsRounded.mul_le_natCast {n bound : Nat} {value : ℚ} {places : Int} (hplaces : 0 ≤ places)
    (h : IsRounded n (value / 10 ^ (-places))) (hle : value ≤ bound) :
    (n * 10 ^ (-places) : ℚ) ≤ bound := by
  obtain ⟨p, hp⟩ := exists_natCast_eq_zpow hplaces
  have hsteps : n ≤ bound * p := h.le (by
    rw [zpow_neg, div_inv_eq_mul, ← hp, Nat.cast_mul]
    exact mul_le_mul_of_nonneg_right hle (Nat.cast_nonneg p))
  rw [zpow_neg, ← div_eq_mul_inv, div_le_iff₀ (ten_zpow_pos places), ← hp]
  exact_mod_cast hsteps

/-- A decimal below a power of ten is a step below it. -/
theorem mul_zpow_add_le {n : Nat} {j k : Int} (hn : 0 < n) (hlt : (n * 10 ^ j : ℚ) < 10 ^ k) :
    (n * 10 ^ j + 10 ^ j : ℚ) ≤ 10 ^ k := by
  have hstep := ten_zpow_pos j
  have hn' : (1 : ℚ) ≤ n := by exact_mod_cast hn
  have hjk : j < k := by
    have hlt' : (10 : ℚ) ^ j < 10 ^ k := (le_mul_of_one_le_left hstep.le hn').trans_lt hlt
    exact (zpow_lt_zpow_iff_right₀ (by norm_num)).1 hlt'
  obtain ⟨p, hp⟩ := exists_natCast_eq_zpow (show 0 ≤ k - j by omega)
  have hpower : (10 : ℚ) ^ k = p * 10 ^ j := by
    rw [hp, ← zpow_add₀ (by norm_num), sub_add_cancel]
  rw [hpower, mul_lt_mul_iff_left₀ hstep, Nat.cast_lt] at hlt
  rw [hpower, ← add_one_mul]
  exact mul_le_mul_of_nonneg_right (by exact_mod_cast hlt) hstep.le

section Near

variable {digits j : Int} {n : Nat} (hx : x.isFiniteNonzero = true)
  (h : x.decimalExponent = .ok e) (hfew : digits ≤ 13) (hn : (n : ℚ) ≤ 10 ^ digits)

include hx h hfew hn

/-- A number that is not below a power of ten by much, and near a decimal of few digits, is near one
that is not below the power. -/
theorem le_decimal_of_near (hnear : |(|x.toRat|) - n * 10 ^ j| ≤ 26 / 10 ^ 15 * 10 ^ e) :
    (10 : ℚ) ^ e ≤ n * 10 ^ j := by
  by_contra hlt
  rw [not_le] at hlt
  have hlow := (decimalExponent_bounds_abs hx h).2
  have hclose := (abs_le.1 hnear).2
  have hpow := ten_zpow_pos e
  have hpos : 0 < n := by
    rcases Nat.eq_zero_or_pos n with rfl | hpos
    · rw [Nat.cast_zero, zero_mul, sub_zero] at hclose
      linarith
    · exact hpos
  rcases lt_or_ge j (e - digits) with hsmall | hlarge
  · -- so many digits do not come near the power
    have hvalue : (n * 10 ^ j : ℚ) ≤ 10 ^ e / 10 := by
      have hbound : (10 : ℚ) ^ (e - 1) = 10 ^ e / 10 := zpow_sub_one₀ (by norm_num) e
      rw [← hbound]
      calc (n * 10 ^ j : ℚ) ≤ 10 ^ digits * 10 ^ j :=
            mul_le_mul_of_nonneg_right hn (ten_zpow_pos j).le
        _ = 10 ^ (digits + j) := (zpow_add₀ (by norm_num) _ _).symm
        _ ≤ 10 ^ (e - 1) := zpow_le_zpow_right₀ (by norm_num) (by omega)
    linarith
  · have hstep : (10 : ℚ) ^ e / 10 ^ 13 ≤ 10 ^ j := by
      rw [← zpow_natCast, ← zpow_sub₀ (by norm_num)]
      exact zpow_le_zpow_right₀ (by norm_num) (by push_cast; omega)
    have hbelow := mul_zpow_add_le hpos hlt
    linarith

/-- A decimal of few digits near a number is a whole number of the steps that the number has for
these digits, and the one that it is rounded to. -/
theorem exists_steps_of_near (hdigits : 1 ≤ digits)
    (hnear : |(|x.toRat|) - n * 10 ^ j| ≤ 26 / 10 ^ 15 * 10 ^ e) :
    ∃ m : Nat, (n * 10 ^ j : ℚ) = m * 10 ^ (e + 1 - digits) ∧
      |(|x.toRat|) - n * 10 ^ j| < 10 ^ (e + 1 - digits) / 2 := by
  have hlow := le_decimal_of_near hx h hfew hn hnear
  have hvalue : (n * 10 ^ j : ℚ) ≤ 10 ^ (digits + j) := by
    rw [zpow_add₀ (by norm_num)]
    exact mul_le_mul_of_nonneg_right hn (ten_zpow_pos j).le
  have hclose : |(|x.toRat|) - n * 10 ^ j| < 10 ^ (e + 1 - digits) / 2 := by
    have hstep : (10 : ℚ) ^ e / 10 ^ 12 ≤ 10 ^ (e + 1 - digits) := by
      rw [← zpow_natCast, ← zpow_sub₀ (by norm_num)]
      exact zpow_le_zpow_right₀ (by norm_num) (by push_cast; omega)
    linarith [ten_zpow_pos e]
  have hj : e ≤ digits + j :=
    (zpow_le_zpow_iff_right₀ (by norm_num : (1 : ℚ) < 10)).1 (hlow.trans hvalue)
  rcases hj.eq_or_lt with heq | hlt
  · -- all digits are nines, and one more: the decimal is a power of ten
    obtain ⟨p, hp⟩ := exists_natCast_eq_zpow (show 0 ≤ digits - 1 by omega)
    refine ⟨p, ?_, hclose⟩
    rw [le_antisymm (heq ▸ hvalue) hlow, hp, ← zpow_add₀ (by norm_num)]
    congr 1
    ring
  · obtain ⟨p, hp⟩ := exists_natCast_eq_zpow (show 0 ≤ j - (e + 1 - digits) by omega)
    refine ⟨n * p, ?_, hclose⟩
    rw [Nat.cast_mul, hp, mul_assoc, ← zpow_add₀ (by norm_num), sub_add_cancel]

end Near

end Metrology.Double
