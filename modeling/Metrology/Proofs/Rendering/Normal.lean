import Metrology.Proofs.Rendering.Mantissa
import Metrology.Proofs.Rendering.Prefix

/-!
# Mantissas are normalized

In scientific notation, and before an SI prefix or the name of a power of a thousand, a number is
written as a mantissa, which is rounded up to three times: to significant digits, when it is divided
by a power of ten, and when it is written. The exponent comes from the first of these roundings.

Before a prefix or a name the quotient is rounded to significant digits once more. To few digits
that gives the decimal again (`showsNormalized_of_few`); to many it stays below a thousand, unless
the number is just below a power of ten (`showsNormalized_of_many`).

`scaled_normalized` puts the three renderings together.
-/

namespace Metrology.Rendering

open Double Text

/-! ### Powers of a thousand -/

/-- A plain number near a decimal of few digits is written as the decimal. -/
theorem exists_shows_of_near {rounded : Double} {digits e j : Int} {n : Nat} {t : String}
    (hrounded : rounded.isFiniteNonzero = true) (he : rounded.decimalExponent = .ok e)
    (h : plainRounded rounded digits = .ok t) (hdigits : 1 ≤ digits) (hfew : digits ≤ 13)
    (hn : (n : ℚ) ≤ 10 ^ digits)
    (hnear : |(|rounded.toRat|) - n * 10 ^ j| ≤ 26 / 10 ^ 15 * 10 ^ e)
    (hhalf : |(|rounded.toRat|) - n * 10 ^ j| < 1 / 2) :
    ∃ d : Numeral, d.Shows t rounded.isNegative (n * 10 ^ j) := by
  obtain ⟨e', places, steps, d, he', hplaces, hsteps, hd, -⟩ :=
    exists_steps_of_plainRounded hrounded h
  obtain rfl : e = e' := Except.ok.inj (he.symm.trans he')
  have hlow := (decimalExponent_bounds he).1
  obtain ⟨m, hm, hclose⟩ := exists_steps_of_near hrounded he hfew hn hdigits hnear
  refine ⟨d, ?_⟩
  rw [hm] at hclose hhalf ⊢
  rw [exactPlaces] at hplaces
  rcases le_or_gt 0 (digits - 1 - e) with hnonneg | hneg
  · have hstep : e + 1 - digits = -places := by omega
    rw [hstep] at hclose ⊢
    have hspos := ten_zpow_pos (-places)
    obtain rfl : steps = m := by
      refine hsteps.unique (isRounded_div_of_lt hspos ?_)
      rw [abs_sub_comm]
      linarith
    exact hd
  · -- without places the decimal is a whole number
    obtain rfl : places = 0 := by omega
    obtain ⟨p, hp⟩ := exists_natCast_eq_zpow (show 0 ≤ e + 1 - digits by omega)
    rw [← hp] at hhalf ⊢
    rw [neg_zero, zpow_zero, div_one] at hsteps
    rw [neg_zero, zpow_zero, mul_one] at hd
    obtain rfl : steps = m * p := by
      refine hsteps.unique (isRounded_of_lt ?_)
      rw [abs_sub_comm]
      exact_mod_cast hhalf
    exact_mod_cast hd

/-- A number between one and a thousand near a decimal of few digits is rounded to the decimal, and
written as it. -/
theorem exists_shows_of_plain {q : Double} {digits j : Int} {n : Nat} {t : String}
    (hq : q.isFiniteNonzero = true) (ht : plain (.double q) digits = .ok t) (hfew : digits ≤ 13)
    (hn : (n : ℚ) ≤ 10 ^ digits) (hone : 1 ≤ (n * 10 ^ j : ℚ)) (hthousand : (n * 10 ^ j : ℚ) ≤ 1000)
    (hnear : |(|q.toRat|) - n * 10 ^ j| ≤ 2 / 10 ^ 15 * (n * 10 ^ j)) :
    ∃ d : Numeral, d.Shows t q.isNegative (n * 10 ^ j) := by
  obtain ⟨rounded, hrounded, hplain⟩ := exists_of_bind_eq_ok ht
  have hplain := ok_of_mapError_eq_ok hplain
  obtain ⟨e, m, h⟩ := exists_rounding hq hrounded
  have hnonzero := h.isFiniteNonzero hq
  have hupper := (decimalExponent_bounds_abs hq h.exponent_eq).1
  rw [zpow_add_one₀ (by norm_num)] at hupper
  obtain ⟨m', hm', hhalf⟩ := exists_steps_of_near hq h.exponent_eq hfew hn h.digits_pos
    (hnear.trans (by
      have hvalue := (abs_le.1 hnear).1
      norm_num at hvalue ⊢
      linarith))
  obtain rfl : m = m' := h.eq_of_near (by rwa [← hm', abs_sub_comm])
  have hrounds := h.roundsTo
  have hclose := h.abs_rounded_sub_le_half
  rw [← hm'] at hrounds hclose
  -- the rounded number lies between one and a thousand too
  have hlow := hrounds.natCast_le (n := 1) (by decide) (by rwa [Nat.cast_one])
  have hhigh := hrounds.le_natCast (n := 1000) (by decide) (by rwa [Nat.cast_ofNat])
  rw [toRat_abs] at hlow hhigh
  rw [Nat.cast_one] at hlow
  rw [Nat.cast_ofNat] at hhigh
  have hunit := one_div_one_le_ten_zpow (K := 0) (by decide)
  obtain ⟨e', -, -, -, he', -⟩ := exists_steps_of_plainRounded hnonzero hplain
  have hupper' := (decimalExponent_bounds_abs hnonzero he').1
  have hpow : (1 : ℚ) ≤ 10 ^ e' :=
    one_le_zpow₀ (by norm_num) (exponent_ge_of_le hnonzero he' (by rwa [zpow_zero]))
  rw [zpow_add_one₀ (by norm_num)] at hupper'
  rw [← h.isNegative_eq]
  generalize (1 : ℚ) / one = unit at hclose hunit
  norm_num at hclose hunit
  exact exists_shows_of_near hnonzero he' hplain h.digits_pos hfew hn (by linarith) (by linarith)

/-- A number from one on and below a thousand stays from one on, and moves little, when it is
rounded to many digits. -/
theorem Rounding.near_of_many {q rounded : Double} {digits e : Int} {n : Nat}
    (h : Rounding q rounded digits e n) (hmany : 13 < digits) (hone : 1 ≤ |q.toRat|)
    (hthousand : |q.toRat| ≤ (1 - 69 / 10 ^ 15) * 1000) :
    1 ≤ |rounded.toRat| ∧ |(|rounded.toRat|) - (|q.toRat|)| ≤ 1 / 10 ^ 11 ∧
      |(|rounded.toRat|) - (|q.toRat|)| ≤ |q.toRat| * (2 / 10 ^ 13) := by
  have hq : q.isFiniteNonzero = true := isFiniteNonzero_of_abs_pos (by linarith)
  have hlow : 0 ≤ e := exponent_ge_of_le hq h.exponent_eq (by rwa [zpow_zero])
  have hlower := (decimalExponent_bounds_abs hq h.exponent_eq).2
  have hhigh : e < 3 := exponent_lt_of_lt hq h.exponent_eq (hthousand.trans_lt (by norm_num))
  have hstep : (10 : ℚ) ^ (e + 1 - digits) ≤ 10 ^ e / 10 ^ 13 := by
    rw [← zpow_natCast, ← zpow_sub₀ (by norm_num)]
    exact zpow_le_zpow_right₀ (by norm_num) (by push_cast; omega)
  have hpow : (10 : ℚ) ^ e ≤ 100 :=
    le_trans (zpow_le_zpow_right₀ (by norm_num) (show e ≤ 2 by omega)) (by norm_num)
  have htriangle := (abs_sub_le (|rounded.toRat|) (n * 10 ^ (e + 1 - digits)) (|q.toRat|)).trans
    (add_le_add (h.abs_rounded_sub_value_le hq) h.abs_value_sub_le)
  refine ⟨?_, ?_, ?_⟩
  · -- one is a whole number of steps
    obtain ⟨p, hp⟩ := exists_natCast_eq_zpow (show 0 ≤ digits - 1 - e by omega)
    have hunit : (p : ℚ) * 10 ^ (e + 1 - digits) = 1 := by
      rw [hp, ← zpow_add₀ (by norm_num), show digits - 1 - e + (e + 1 - digits) = 0 by ring,
        zpow_zero]
    have hvalue : (1 : ℚ) ≤ n * 10 ^ (e + 1 - digits) := hunit ▸ mul_le_mul_of_nonneg_right
      (by exact_mod_cast h.ge_of_ge (hunit.trans_le hone)) (ten_zpow_pos _).le
    have hle := h.roundsTo.natCast_le (n := 1) (by decide) (by rwa [Nat.cast_one])
    rwa [toRat_abs, Nat.cast_one] at hle
  · norm_num at hstep ⊢
    linarith
  · norm_num at hstep hlower ⊢
    linarith

/-- A number from one on that is at most a thousand is written with many places. -/
theorem exists_shows_of_plainRounded_of_many {rounded : Double} {digits : Int} {t : String}
    (h : plainRounded rounded digits = .ok t) (hmany : 13 < digits) (hone : 1 ≤ |rounded.toRat|)
    (hthousand : |rounded.toRat| ≤ 1000) :
    ∃ (d : Numeral) (magnitude : ℚ), d.Shows t rounded.isNegative magnitude ∧ 1 ≤ magnitude ∧
      |magnitude - (|rounded.toRat|)| ≤ 5 / 10 ^ 11 ∧
      |magnitude - (|rounded.toRat|)| ≤ |rounded.toRat| * (2 / 10 ^ 13) := by
  have hrounded : rounded.isFiniteNonzero = true := isFiniteNonzero_of_abs_pos (by linarith)
  obtain ⟨e, places, steps, d, he, hplaces, hsteps, hd, -⟩ :=
    exists_steps_of_plainRounded hrounded h
  have hlow : 0 ≤ e := exponent_ge_of_le hrounded he (by rwa [zpow_zero])
  have hlower := (decimalExponent_bounds_abs hrounded he).2
  have hhigh : e < 4 := exponent_lt_of_lt hrounded he (hthousand.trans_lt (by norm_num))
  rw [exactPlaces] at hplaces
  have hplace : (10 : ℚ) ^ (-places) ≤ 10 ^ e / 10 ^ 13 := by
    rw [← zpow_natCast, ← zpow_sub₀ (by norm_num)]
    exact zpow_le_zpow_right₀ (by norm_num) (by push_cast; omega)
  have hpow : (10 : ℚ) ^ e ≤ 1000 :=
    le_trans (zpow_le_zpow_right₀ (by norm_num) (show e ≤ 3 by omega)) (by norm_num)
  have hshown := hsteps.abs_mul_sub_le (ten_zpow_pos (-places))
  have hshownOne : ((1 : ℕ) : ℚ) ≤ steps * 10 ^ (-places) :=
    hsteps.natCast_le_mul (by omega) (by rwa [Nat.cast_one])
  rw [Nat.cast_one] at hshownOne
  refine ⟨d, _, hd, hshownOne, hshown.trans ?_, hshown.trans ?_⟩
  · norm_num at hplace ⊢
    linarith
  · norm_num at hplace hlower ⊢
    linarith

/-- A number from one on that is not just below a thousand is written below a thousand, to however
many digits. -/
theorem exists_shows_of_plain_of_many {q : Double} {digits : Int} {t : String}
    (ht : plain (.double q) digits = .ok t) (hmany : 13 < digits) (hone : 1 ≤ |q.toRat|)
    (hthousand : |q.toRat| ≤ (1 - 69 / 10 ^ 15) * 1000) :
    ∃ (d : Numeral) (magnitude : ℚ), d.Shows t q.isNegative magnitude ∧
      1 ≤ magnitude ∧ magnitude < 1000 ∧ |magnitude - (|q.toRat|)| ≤ |q.toRat| / 10 ^ 12 := by
  obtain ⟨rounded, hrounded, hplain⟩ := exists_of_bind_eq_ok ht
  obtain ⟨e, n, h⟩ := exists_rounding (isFiniteNonzero_of_abs_pos (by linarith)) hrounded
  obtain ⟨hone', hnear, hclose⟩ := h.near_of_many hmany hone hthousand
  norm_num at hthousand
  have habove := (abs_le.1 hnear).2
  obtain ⟨d, magnitude, hd, hlow, hnear', hclose'⟩ :=
    exists_shows_of_plainRounded_of_many (ok_of_mapError_eq_ok hplain) hmany hone'
      (by norm_num at habove; linarith)
  refine ⟨d, magnitude, h.isNegative_eq ▸ hd, hlow, ?_, ?_⟩
  · have hshown := (abs_le.1 hnear').2
    norm_num at habove hshown
    linarith
  · have htriangle := abs_sub_le magnitude (|rounded.toRat|) (|q.toRat|)
    have hupper := (abs_le.1 hclose).2
    norm_num at hclose hclose' hupper ⊢
    linarith

section Thousands

variable {x rounded q : Double} {digits e e' k : Int} {n : Nat} {t : String}
  (h : Rounding x rounded digits e n) (hx : x.isFiniteNonzero = true)
  (he' : rounded.decimalExponent = .ok e') (hlow : -307 ≤ k) (hle : k ≤ e') (hlt : e' < k + 3)
  (hnegative : q.isNegative = rounded.isNegative)
  (hq : q.abs.RoundsTo (|rounded.toRat| / (tenPow k).toRat))
  (ht : plain (.double q) digits = .ok t)

include h hx he' hlow hle hlt hnegative hq ht

/-- To few digits the decimal itself is shown. -/
theorem showsNormalized_of_few (hfew : digits ≤ 13) : ShowsNormalized t rounded 1000 k := by
  have hpow := ten_zpow_pos k
  have hhigh := (decimalExponent_bounds he').2
  have hnear := h.abs_rounded_sub_le_of_normal hx he' (by omega)
  obtain ⟨m, hm, hbelow, habove⟩ := h.exists_steps_of_few hx he' (by omega) hfew
  have hlower := (decimalExponent_bounds_abs (h.isFiniteNonzero hx) he').2
  have hmono : (10 : ℚ) ^ k ≤ 10 ^ e' := zpow_le_zpow_right₀ (by norm_num) hle
  have hquotient := abs_quotient_sub_le hlow (by omega) (by linarith) hq
  rw [toRat_abs] at hquotient
  -- the decimal over the power of ten
  have hvalue : (n * 10 ^ (e + 1 - digits) : ℚ) = n * 10 ^ (e + 1 - digits - k) * 10 ^ k := by
    rw [mul_assoc, ← zpow_add₀ (by norm_num), sub_add_cancel]
  have hone : (1 : ℚ) ≤ n * 10 ^ (e + 1 - digits - k) := by
    rw [← mul_le_mul_iff_left₀ hpow, ← hvalue, hm, one_mul]
    exact hmono.trans hbelow
  have hthousand : (n * 10 ^ (e + 1 - digits - k) : ℚ) < 1000 := by
    have hmono' : (10 : ℚ) ^ (e' + 1) ≤ 10 ^ (k + 3) :=
      zpow_le_zpow_right₀ (by norm_num) (by omega)
    rw [zpow_add₀ (by norm_num) k] at hmono'
    rw [← mul_lt_mul_iff_left₀ hpow, ← hvalue, hm]
    linarith [ten_zpow_pos (e' + 1 - digits)]
  rw [hvalue] at hnear
  generalize e + 1 - digits - k = j at hone hthousand hnear
  -- the rounded number over the power of ten
  generalize hratio : |rounded.toRat| / 10 ^ k = ratio at hquotient
  rw [div_eq_iff hpow.ne'] at hratio
  rw [hratio, ← sub_mul, abs_mul, abs_of_pos hpow, ← mul_assoc, mul_le_mul_iff_left₀ hpow] at hnear
  have htriangle := abs_sub_le (|q.toRat|) ratio (n * 10 ^ j)
  obtain ⟨hratioLow, hratioHigh⟩ := abs_le.1 hnear
  have hqLow := (abs_le.1 hquotient).1
  norm_num at hnear hquotient hratioLow hratioHigh hqLow
  have hqpos : q.isFiniteNonzero = true := isFiniteNonzero_of_abs_pos (by linarith)
  obtain ⟨d, hd⟩ := exists_shows_of_plain hqpos ht hfew (h.cast_steps_le hx) hone hthousand.le
    (by norm_num; linarith)
  refine ⟨d, _, hnegative ▸ hd, hone, hthousand,
    le_shownTolerance_mul (abs_mul_sub_le_of_div hpow ?_)⟩
  rw [hratio, mul_div_cancel_right₀ _ hpow.ne', abs_sub_comm]
  linarith

/-- To many digits the mantissa stays below a thousand, since the number is not just below a power
of ten. -/
theorem showsNormalized_of_many (hmany : 13 < digits) (hnot : ¬rounded.IsJustBelow) :
    ShowsNormalized t rounded 1000 k := by
  have hpow := ten_zpow_pos k
  have hrounded := h.isFiniteNonzero hx
  have hhigh := (decimalExponent_bounds he').2
  obtain ⟨hbelow, habove⟩ := bounds_of_not_isJustBelow hrounded he' hnot
  have hmono : (10 : ℚ) ^ k ≤ 10 ^ e' := zpow_le_zpow_right₀ (by norm_num) hle
  have hmono' : (10 : ℚ) ^ (e' + 1) ≤ 10 ^ (k + 3) := zpow_le_zpow_right₀ (by norm_num) (by omega)
  rw [zpow_add₀ (by norm_num) k] at hmono'
  have hquotient := abs_quotient_sub_le hlow (by omega) (by linarith) hq
  have hpower := toRat_tenPow_pos (show -323 ≤ k by omega) (by omega)
  have hqOne := hq.natCast_le (n := 1) (by decide) (by
    rw [Nat.cast_one, one_le_div hpower]
    exact tenPow_le_of_le (Bool.and_eq_true_iff.1 hrounded).1 (by omega) (hmono.trans hbelow))
  rw [toRat_abs] at hquotient hqOne
  rw [Nat.cast_one] at hqOne
  have hratioHigh : |rounded.toRat| / 10 ^ k ≤ (1 - 7 / 10 ^ 14) * 1000 := by
    rw [div_le_iff₀ hpow]
    norm_num at habove hmono' ⊢
    linarith
  have hqHigh : |q.toRat| ≤ (1 - 69 / 10 ^ 15) * 1000 := by
    have hupper := (abs_le.1 hquotient).2
    norm_num at hupper hratioHigh ⊢
    linarith
  obtain ⟨d, magnitude, hd, hlow', hhigh', hclose⟩ :=
    exists_shows_of_plain_of_many ht hmany hqOne hqHigh
  refine ⟨d, magnitude, hnegative ▸ hd, hlow', hhigh',
    le_shownTolerance_mul (abs_mul_sub_le_of_div hpow ?_)⟩
  have htriangle := abs_sub_le magnitude (|q.toRat|) (|rounded.toRat| / 10 ^ k)
  obtain ⟨hbelow', habove'⟩ := abs_le.1 hquotient
  norm_num at hclose hquotient habove' ⊢
  linarith

theorem showsNormalized_of_plain (hexact : digits ≤ 13 ∨ ¬rounded.IsJustBelow) :
    ShowsNormalized t rounded 1000 k := by
  rcases le_or_gt digits 13 with hfew | hmany
  · exact showsNormalized_of_few h hx he' hlow hle hlt hnegative hq ht hfew
  · exact showsNormalized_of_many h hx he' hlow hle hlt hnegative hq ht hmany
      (hexact.resolve_left (not_le.2 hmany))

end Thousands

/-- Only from the twelfth power of a thousand on is there no name. -/
theorem ge_of_lookup_thousandNames_eq_none {e : Int} (hlow : 3 ≤ e)
    (hnone : thousandNames.lookup (thousandsExponent e) = none) : 36 ≤ e := by
  by_contra hlt
  have hall : ∀ i : Fin 11, (thousandNames.lookup (3 * ((i.val : Int) + 1))).isSome = true := by
    decide
  have hexponent : thousandsExponent e = 3 * (((e / 3).toNat - 1 : ℕ) + 1) := by
    rw [thousandsExponent, Int.fdiv_eq_ediv_of_nonneg _ (by decide)]
    omega
  have hsome := hall ⟨(e / 3).toNat - 1, by omega⟩
  rw [← hexponent, hnone] at hsome
  exact absurd hsome (by simp)

section Scaled

variable {x rounded : Double} {digits e : Int} {n : Nat} (h : Rounding x rounded digits e n)
  (hx : x.isFiniteNonzero = true) (hexact : digits ≤ 13 ∨ ¬rounded.IsJustBelow)

include h hx hexact

/-- A number over the power of a thousand of its exponent is normalized. -/
theorem showsNormalized_of_scaleDown {e' : Int} (he' : rounded.decimalExponent = .ok e')
    (hlow : -300 ≤ e') {mantissa : Double} {numeral : String}
    (hscale : scaleDown rounded (thousandsExponent e') = .ok mantissa)
    (hnumeral : plain (.double mantissa) digits = .ok numeral) :
    ShowsNormalized numeral rounded 1000 (thousandsExponent e') := by
  have hrounded := h.isFiniteNonzero hx
  have hhigh := (decimalExponent_bounds he').2
  have hbounds : thousandsExponent e' ≤ e' ∧ e' < thousandsExponent e' + 3 := by
    rw [thousandsExponent, Int.fdiv_eq_ediv_of_nonneg _ (by decide)]
    omega
  obtain ⟨hnegative, hrounds⟩ := roundsTo_scaleDown (Bool.and_eq_true_iff.1 hrounded).1 (by omega)
    (by omega) ((decimalExponent_bounds_abs hrounded he').1.trans_le
      (zpow_le_zpow_right₀ (by norm_num) (by omega))) hscale
  exact showsNormalized_of_plain h hx he' (by omega) hbounds.1 hbounds.2 hnegative hrounds hnumeral
    hexact

/-- The mantissa before an SI prefix is normalized, if there is a prefix for the number. -/
theorem exists_of_si (hrounded : roundSignificant (.double x) digits = .ok rounded) {unit : RawText}
    {unicode : Bool} {t : RawText} (ht : si (.double x) unit digits unicode = .ok t)
    (hlow : 10 ^ (-24 : Int) ≤ |rounded.toRat|) (hhigh : |rounded.toRat| < 10 ^ 27) :
    ∃ numeral, ∃ exponent ∈ siPrefixes.map Prod.fst,
      t = attachUnit (siPrefixOf exponent unicode ++ unit) numeral ∧
        ShowsNormalized numeral rounded 1000 exponent := by
  have hnonzero := h.isFiniteNonzero hx
  rw [si, hrounded, ok_bind, if_neg (by simp [(Bool.and_eq_true_iff.1 hnonzero).1])] at ht
  obtain ⟨e', he', ht⟩ := exists_of_bind_eq_ok ht
  have he' := ok_of_mapError_eq_ok he'
  obtain ⟨mantissa, hscale, ht⟩ := exists_of_bind_eq_ok ht
  have hscale := ok_of_mapError_eq_ok hscale
  obtain ⟨numeral, hnumeral, ht⟩ := exists_of_bind_eq_ok ht
  have hbelow := exponent_ge_of_le hnonzero he' hlow
  have habove : e' ≤ 26 := by
    by_contra hgt
    have hmono : (10 : ℚ) ^ (27 : Int) ≤ 10 ^ e' := zpow_le_zpow_right₀ (by norm_num) (by omega)
    rcases h.le_or_roundsTo hx he' hexact with hle | ⟨-, hrounds⟩
    · exact absurd (hmono.trans hle) (not_le.2 hhigh)
    · -- the double nearest to the next power of a thousand is not below it
      have hpower := (roundsTo_tenPow (k := 27) (by decide) (by decide)).mono hrounds hmono
      rw [toRat_abs] at hpower
      have hlarge : (10 : ℚ) ^ 27 ≤ (tenPow 27).toRat := by decide +kernel
      linarith
  have hexponent : siExponent e' = thousandsExponent e' := by
    rw [siExponent, thousandsExponent, Int.fdiv_eq_ediv_of_nonneg _ (by decide)]
    omega
  refine ⟨numeral, siExponent e', siExponent_mem e', (Except.ok.inj ht).symm, ?_⟩
  rw [hexponent] at hscale ⊢
  exact showsNormalized_of_scaleDown h hx hexact he' (by omega) hscale hnumeral

/-- The mantissa before the name of a power of a thousand is normalized. -/
theorem exists_of_named (hrounded : roundSignificant (.double x) digits = .ok rounded) {t : String}
    (ht : named (.double x) digits = .ok t) :
    ' ' ∉ t.toList ∧
        (|rounded.toRat| < 1000 ∨ (1 - 1 / 10 ^ 13) * 10 ^ 36 ≤ |rounded.toRat|) ∨
      ∃ numeral, ∃ entry ∈ thousandNames, t = numeral ++ " " ++ entry.2 ∧
        ShowsNormalized numeral rounded 1000 entry.1 := by
  have hnonzero := h.isFiniteNonzero hx
  have hfinite := (Bool.and_eq_true_iff.1 hnonzero).1
  have hthousand : (1000 : Double).isFinite = true ∧ (1000 : Double).toRat = 1000 :=
    toRat_ofNat (by decide)
  have hlt : Double.lt rounded.abs 1000 = true ↔ |rounded.toRat| < 1000 := by
    rw [lt_iff_toRat_lt ((isFinite_abs rounded).trans hfinite) hthousand.1, toRat_abs, hthousand.2]
  rw [named, hrounded, ok_bind, hfinite, Bool.not_true, Bool.false_or] at ht
  split at ht
  · next hsmall => exact Or.inl ⟨space_notMem_plain ht, Or.inl (hlt.1 hsmall)⟩
  · next hlarge =>
    have hlarge' := not_lt.1 (mt hlt.2 hlarge)
    obtain ⟨e', he', ht⟩ := exists_of_bind_eq_ok ht
    have he' := ok_of_mapError_eq_ok he'
    have hbelow : 3 ≤ e' := exponent_ge_of_le hnonzero he' (le_trans (by norm_num) hlarge')
    dsimp only at ht
    split at ht
    · next hnone =>
      have hhigh := ge_of_lookup_thousandNames_eq_none hbelow hnone
      refine Or.inl ⟨space_notMem_scientific ht, Or.inr ?_⟩
      have hlower := (decimalExponent_bounds_abs hnonzero he').2
      have hmono : (10 : ℚ) ^ (36 : Int) ≤ 10 ^ e' := zpow_le_zpow_right₀ (by norm_num) hhigh
      norm_num at hlower hmono ⊢
      linarith
    · next name hname =>
      obtain ⟨mantissa, hscale, ht⟩ := exists_of_bind_eq_ok ht
      have hscale := ok_of_mapError_eq_ok hscale
      obtain ⟨numeral, hnumeral, ht⟩ := exists_of_bind_eq_ok ht
      obtain ⟨before, after, hsplit, -⟩ := List.lookup_eq_some_iff.1 hname
      exact Or.inr ⟨numeral, (thousandsExponent e', name),
        hsplit ▸ List.mem_append_right _ List.mem_cons_self, (Except.ok.inj ht).symm,
        showsNormalized_of_scaleDown h hx hexact he' (by omega) hscale hnumeral⟩

end Scaled

/-! ### Scaled renderings -/

/-- **Mantissas are normalized**: from one on and below ten in scientific notation, below a thousand
before a name or an SI prefix, and with the power of ten they show the number. To more than thirteen
digits this needs that the rounded number is not just below a power of ten. -/
theorem scaled_normalized {x rounded : Double} {digits : Int} (hx : x.isFiniteNonzero = true)
    (hrounded : roundSignificant (.double x) digits = .ok rounded)
    (hexact : digits ≤ 13 ∨ ¬rounded.IsJustBelow) :
    (∀ unicode t, scientific (.double x) digits unicode = .ok t →
      ∃ numeral exponent, t = numeral ++ powerText exponent unicode ∧
        ShowsNormalized numeral rounded 10 exponent) ∧
    (∀ t, named (.double x) digits = .ok t →
      ' ' ∉ t.toList ∧
          (|rounded.toRat| < 1000 ∨ (1 - 1 / 10 ^ 13) * 10 ^ 36 ≤ |rounded.toRat|) ∨
        ∃ numeral, ∃ entry ∈ thousandNames, t = numeral ++ " " ++ entry.2 ∧
          ShowsNormalized numeral rounded 1000 entry.1) ∧
    (∀ unit unicode t, si (.double x) unit digits unicode = .ok t →
      10 ^ (-24 : Int) ≤ |rounded.toRat| → |rounded.toRat| < 10 ^ 27 →
      ∃ numeral, ∃ exponent ∈ siPrefixes.map Prod.fst,
        t = attachUnit (siPrefixOf exponent unicode ++ unit) numeral ∧
          ShowsNormalized numeral rounded 1000 exponent) := by
  obtain ⟨e, n, h⟩ := exists_rounding hx hrounded
  refine ⟨fun unicode t ht ↦ ?_, fun t ht ↦ exists_of_named h hx hexact hrounded ht,
    fun unit unicode t ht hlow hhigh ↦ exists_of_si h hx hexact hrounded ht hlow hhigh⟩
  rw [scientific, hrounded, ok_bind] at ht
  exact exists_of_scientific h hx hexact (ok_of_mapError_eq_ok ht)

/-- What is rounded up to a million to three digits. -/
theorem scaled_normalized_million :
    scientific (.double 999999.9) 3 false = .ok "1e6" ∧
      named (.double 999999.9) 3 = .ok "1 million" ∧
      ∃ numeral, ∃ entry ∈ thousandNames, "1 million" = numeral ++ " " ++ entry.2 ∧
        ShowsNormalized numeral 1000000 1000 entry.1 := by
  have hnamed : named (.double 999999.9) 3 = .ok "1 million" := by decide +kernel
  refine ⟨by decide +kernel, hnamed, ?_⟩
  obtain ⟨-, h, -⟩ := scaled_normalized
    (by decide +kernel : (999999.9 : Double).isFiniteNonzero = true)
    (by decide +kernel : roundSignificant (.double 999999.9) 3 = .ok 1000000) (Or.inl (by decide))
  exact (h _ hnamed).resolve_left fun hnone ↦ absurd hnone.1 (by decide)

/-- Just below a power of ten the mantissa may be a thousand, or less than one. -/
theorem scaled_just_below :
    si (.double 0.9999999999999999) "" 16 true = .ok ("1000" ++ " " ++ siPrefixOf (-3) true) ∧
      ¬ShowsNormalized "1000" 0.9999999999999999 1000 (-3) ∧
    scientific (.double 999999999999999.9) 17 false =
        .ok ("0.9999999999999999" ++ powerText 15 false) ∧
      ¬ShowsNormalized "0.9999999999999999" 999999999999999.9 10 15 := by
  refine ⟨by decide +kernel, ?_, by decide +kernel, ?_⟩
  · rintro ⟨d, magnitude, hd, -, hlt, -⟩
    have hmagnitude := hd.magnitude_of_read?
      (by decide : Text.Literal.read? "1000".toList = some ⟨false, 1000, 0⟩)
    norm_num at hmagnitude
    linarith
  · rintro ⟨d, magnitude, hd, hle, -⟩
    have hmagnitude := hd.magnitude_of_read? (by decide :
      Text.Literal.read? "0.9999999999999999".toList = some ⟨false, 9999999999999999, -16⟩)
    norm_num at hmagnitude
    linarith

end Metrology.Rendering
