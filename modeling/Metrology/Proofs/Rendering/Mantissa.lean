import Metrology.Proofs.Rendering.Exponent

/-!
# Mantissas of scientific notation

In scientific notation a rounded number is divided by the power of ten of its exponent, the quotient
is rounded to places, and what is then ten or more is carried.

* A quotient of one or more is written as one or more (`one_le_steps`), and one that is rounded up
  to ten is carried (`exists_shows_of_carry`).
* Unless powers of ten have few bits the quotient is near the number, so that nothing is carried
  (`steps_of_quotient_of_few`, `steps_of_quotient_of_many`).
* Among the least powers of ten it is only known that the exponent is not another one
  (`abs_shown_sub_le_of_least`).

`exists_of_scientific` puts the two together.
-/

namespace Metrology.Rendering

open Double Text

theorem exists_of_scientificRounded {rounded : Double} {digits : Int} {unicode : Bool} {t : String}
    (hrounded : rounded.isFiniteNonzero = true)
    (h : scientificRounded rounded digits unicode = .ok t) :
    ∃ e q mantissa numeral, rounded.decimalExponent = .ok e ∧ scaleDown rounded e = .ok q ∧
      q.roundPlaces (digits - 1) = .ok mantissa ∧
      (carry mantissa e).1.trimmed? (digits - 1) = .ok numeral ∧
      t = numeral ++ powerText (carry mantissa e).2 unicode := by
  obtain ⟨hfinite, hzero⟩ := Bool.and_eq_true_iff.1 hrounded
  rw [Bool.not_eq_true'] at hzero
  rw [scientificRounded, hfinite, hzero, Bool.not_true, if_neg (by simp), if_neg (by simp)] at h
  obtain ⟨e, he, h⟩ := exists_of_bind_eq_ok h
  obtain ⟨q, hq, h⟩ := exists_of_bind_eq_ok h
  obtain ⟨mantissa, hmantissa, h⟩ := exists_of_bind_eq_ok h
  dsimp only at h
  obtain ⟨numeral, hnumeral, h⟩ := exists_of_bind_eq_ok h
  exact ⟨e, q, mantissa, numeral, he, hq, hmantissa, hnumeral, (Except.ok.inj h).symm⟩

theorem roundPlaces_min (x : Double) (places : Int) :
    x.roundPlaces (min places exactPlaces) = x.roundPlaces places := by
  rcases le_or_gt places exactPlaces with hle | hgt
  · rw [min_eq_left hle]
  · rw [min_eq_right hgt.le]
    have hmany : (323 : Int) < exactPlaces := by decide
    cases x with
    | nan | infinite => rfl
    | finite negative rank => rw [roundPlaces, roundPlaces, if_pos hmany, if_pos (hmany.trans hgt)]

theorem exists_steps_of_roundPlaces {q mantissa : Double} {places : Int} (hq : q.isFinite = true)
    (hplaces : 0 ≤ places) (h : q.roundPlaces places = .ok mantissa) :
    ∃ steps : Nat, IsRounded steps (|q.toRat| / 10 ^ (-min places exactPlaces)) ∧
      mantissa.abs.RoundsTo (steps * 10 ^ (-min places exactPlaces)) ∧
      mantissa.isNegative = q.isNegative := by
  cases q with
  | nan | infinite => exact absurd hq (by simp)
  | finite negative rank =>
    rw [← roundPlaces_min] at h
    have hlow : -308 ≤ min places exactPlaces := by
      rw [exactPlaces]
      omega
    obtain ⟨hnegative, hrounds⟩ := exists_roundPlaces hlow h
    refine ⟨_, ?_, hrounds, hnegative⟩
    rw [abs_toRat_finite]
    exact isRounded_stepsAtPlaces rank _

/-- A mantissa is carried from ten on. -/
theorem carry_cases {mantissa : Double} (hfinite : mantissa.isFinite = true) (e : Int) :
    |mantissa.toRat| < 10 ∧ carry mantissa e = (mantissa, e) ∨
      10 ≤ |mantissa.toRat| ∧ carry mantissa e = (mantissa / 10, e + 1) := by
  obtain ⟨-, -, -, hten, -, hvalue⟩ := tenPow_exceptions
  have hle := le_iff_toRat_le hten ((isFinite_abs mantissa).trans hfinite)
  rw [hvalue, toRat_abs] at hle
  rw [carry]
  split
  · next h => exact Or.inr ⟨hle.1 h, rfl⟩
  · next h => exact Or.inl ⟨not_le.1 (mt hle.2 h), rfl⟩

/-- A quotient that is one, but for what few places do not show, is at least one when rounded. -/
theorem one_le_steps {q : Double} {v : ℚ} {places : Int} {n : Nat} (hplaces : 0 ≤ places)
    (hq : q.abs.RoundsTo v) (hn : IsRounded n (|q.toRat| / 10 ^ (-places)))
    (hv : 1 ≤ v ∨ places ≤ 12 ∧ 1 - 1 / 10 ^ 15 ≤ v) : (1 : ℚ) ≤ n * 10 ^ (-places) := by
  have hone : 1 ≤ v → (1 : ℚ) ≤ n * 10 ^ (-places) := fun hle ↦ by
    have hle' := hq.natCast_le (n := 1) (by decide) (by rwa [Nat.cast_one])
    rw [toRat_abs] at hle'
    exact_mod_cast hn.natCast_le_mul hplaces hle'
  rcases hv with hle | ⟨hfew, hnear⟩
  · exact hone hle
  rcases le_or_gt 1 v with hle | hlt
  · exact hone hle
  -- the quotient is too near to one for another number of steps
  obtain ⟨p, hp⟩ := exists_natCast_eq_zpow hplaces
  have hmany : (p : ℚ) ≤ 10 ^ 12 := by
    rw [hp, ← zpow_natCast]
    exact zpow_le_zpow_right₀ (by norm_num) (by exact_mod_cast hfew)
  have hclose := hq.abs_sub_le_of_ge (K := -1) (by decide) (by norm_num at hnear ⊢; linarith)
  rw [toRat_abs] at hclose
  have hlow : 1 - 1 / 10 ^ 14 ≤ |q.toRat| := by
    have hlower := (abs_le.1 hclose).1
    norm_num at hnear hlower ⊢
    linarith
  have hsteps : p ≤ n := by
    by_contra hless
    have hless' : (n + 1 : ℚ) ≤ p := by exact_mod_cast not_le.1 hless
    have hrounded := (abs_le.1 hn.1).1
    rw [zpow_neg, div_inv_eq_mul, ← hp] at hrounded
    have hproduct := mul_le_mul_of_nonneg_right hlow (Nat.cast_nonneg (α := ℚ) p)
    norm_num at hproduct hrounded
    linarith
  rw [zpow_neg, ← div_eq_mul_inv, one_le_div (ten_zpow_pos places), ← hp]
  exact_mod_cast hsteps

/-- A mantissa over ten, before the quotient is a double. -/
theorem roundsTo_div_ten {mantissa : Double} (hfinite : mantissa.isFinite = true)
    (hhigh : |mantissa.toRat| ≤ 20) : (mantissa / 10).isNegative = mantissa.isNegative ∧
      (mantissa / 10).abs.RoundsTo (|mantissa.toRat| / 10) := by
  obtain ⟨-, -, -, hten, hzero, hvalue⟩ := tenPow_exceptions
  have hpos : (0 : ℚ) < (10 : Double).toRat := by
    rw [hvalue]
    norm_num
  have hquotient : |mantissa.toRat / (10 : Double).toRat| = |mantissa.toRat| / 10 := by
    rw [abs_div, abs_of_pos hpos, hvalue]
  refine ⟨?_, ?_⟩
  · rw [isNegative_div hfinite hten hzero, isNegative_of_toRat_pos hpos, Bool.bne_false]
  · rw [← hquotient]
    refine (roundsTo_div hfinite hten hzero ?_).abs
    rw [hquotient]
    exact lt_twoTo_of_le (by linarith)

/-- A mantissa that is carried is shown as at least one and at most two. -/
theorem exists_shows_of_carried {mantissa : Double} {places : Int} {numeral : String}
    (hfinite : mantissa.isFinite = true) (hplaces : 0 ≤ min places exactPlaces)
    (hlow : 10 ≤ |mantissa.toRat|) (hhigh : |mantissa.toRat| ≤ 20)
    (h : (mantissa / 10).trimmed? places = .ok numeral) :
    ∃ (d : Numeral) (magnitude : ℚ), d.Shows numeral mantissa.isNegative magnitude ∧
      1 ≤ magnitude ∧ magnitude ≤ 2 ∧ |magnitude * 10 - (|mantissa.toRat|)| ≤ 51 / 10 := by
  obtain ⟨hnegative, hrounds⟩ := roundsTo_div_ten hfinite hhigh
  obtain ⟨steps, d, hsteps, hd, -⟩ :=
    exists_steps_of_trimmed (isFinite_abs (mantissa / 10) ▸ hrounds.isFinite) h
  rw [hnegative] at hd
  have hbelow := hrounds.natCast_le (n := 1) (by decide) (by push_cast; linarith)
  have habove := hrounds.le_natCast (n := 2) (by decide) (by push_cast; linarith)
  have hclose := hrounds.abs_sub_le_of_ge (K := 0) (by decide) (by rw [zpow_zero]; linarith)
  rw [toRat_abs] at hbelow habove hclose
  have hshownLow := hsteps.natCast_le_mul hplaces hbelow
  have hshownHigh := hsteps.mul_le_natCast hplaces habove
  have hshown := hsteps.abs_mul_sub_le (ten_zpow_pos _)
  have hstep : (10 : ℚ) ^ (-min places exactPlaces) ≤ 1 :=
    zpow_le_one_of_nonpos₀ (by norm_num) (by omega)
  push_cast at hshownLow hshownHigh
  refine ⟨d, _, hd, hshownLow, hshownHigh, ?_⟩
  obtain ⟨hcloseLow, hcloseHigh⟩ := abs_le.1 hclose
  obtain ⟨hshownBelow, hshownAbove⟩ := abs_le.1 hshown
  generalize (10 : ℚ) ^ (-min places exactPlaces) = step at hstep hshownBelow hshownAbove ⊢
  norm_num at hcloseLow hcloseHigh ⊢
  rw [abs_le]
  constructor <;> linarith

/-- What is shown of a mantissa: its value below ten, and from ten on about a tenth of it, with the
exponent after. -/
def IsCarried (mantissa : Double) (value magnitude : ℚ) (shift : Int) : Prop :=
  |mantissa.toRat| < 10 ∧ magnitude = value ∧ shift = 0 ∨
    10 ≤ |mantissa.toRat| ∧ |magnitude * 10 - (|mantissa.toRat|)| ≤ 51 / 10 ∧ shift = 1

/-- A rounded mantissa from one on is shown as one from one on and below ten. -/
theorem exists_shows_of_carry {q mantissa : Double} {places e : Int} {n : Nat} {numeral : String}
    (hq : q.isFinite = true) (hplaces : 0 ≤ min places exactPlaces)
    (hn : IsRounded n (|q.toRat| / 10 ^ (-min places exactPlaces)))
    (hmantissa : mantissa.abs.RoundsTo (n * 10 ^ (-min places exactPlaces)))
    (hlow : (1 : ℚ) ≤ n * 10 ^ (-min places exactPlaces)) (hhigh : |q.toRat| ≤ 20)
    (h : (carry mantissa e).1.trimmed? places = .ok numeral) :
    ∃ (d : Numeral) (magnitude : ℚ), d.Shows numeral mantissa.isNegative magnitude ∧
      1 ≤ magnitude ∧ magnitude < 10 ∧
      IsCarried mantissa (n * 10 ^ (-min places exactPlaces)) magnitude
        ((carry mantissa e).2 - e) := by
  have hfinite : mantissa.isFinite = true := isFinite_abs mantissa ▸ hmantissa.isFinite
  rcases carry_cases hfinite e with ⟨hten, hcarry⟩ | ⟨hten, hcarry⟩
  · rw [hcarry] at h
    obtain ⟨steps, d, hsteps, hd, -⟩ := exists_steps_of_trimmed hfinite h
    obtain rfl := hsteps.unique (hn.of_roundsTo hq (ten_zpow_pos _) hmantissa)
    refine ⟨d, _, hd, hlow, ?_, Or.inl ⟨hten, rfl, by rw [hcarry, sub_self]⟩⟩
    by_contra hge
    have hcarried := hmantissa.natCast_le (n := 10) (by decide) (by exact_mod_cast not_lt.1 hge)
    rw [toRat_abs, Nat.cast_ofNat] at hcarried
    linarith
  · rw [hcarry] at h
    have hvalue : (n * 10 ^ (-min places exactPlaces) : ℚ) ≤ (20 : ℕ) :=
      hn.mul_le_natCast hplaces (by exact_mod_cast hhigh)
    have htop := hmantissa.le_natCast (n := 20) (by decide) hvalue
    rw [toRat_abs, Nat.cast_ofNat] at htop
    obtain ⟨d, magnitude, hd, hbelow, habove, hclose⟩ :=
      exists_shows_of_carried hfinite hplaces hten htop h
    exact ⟨d, magnitude, hd, hbelow, by linarith,
      Or.inr ⟨hten, hclose, by rw [hcarry, add_sub_cancel_left]⟩⟩

/-- A product is near another one if the factors are. -/
theorem abs_mul_sub_mul_le {shown ratio power used : ℚ} (hratio : 0 ≤ ratio) (hused : 0 < used)
    (hpower : |used - power| ≤ power / 80) (hshown : |shown - ratio| ≤ 62 / 100 * ratio) :
    |shown * power - ratio * used| ≤ 2 / 3 * (ratio * used) := by
  obtain ⟨hlow, hhigh⟩ := abs_le.1 hpower
  have hpos : 0 < power := by linarith
  have hfirst := mul_le_mul_of_nonneg_right hshown hpos.le
  rw [← abs_of_pos hpos, ← abs_mul, abs_of_pos hpos, sub_mul] at hfirst
  have hsecond := mul_le_mul_of_nonneg_left hpower hratio
  rw [← abs_of_nonneg hratio, ← abs_mul, abs_of_nonneg hratio, mul_sub, abs_sub_comm] at hsecond
  have hlarge := mul_le_mul_of_nonneg_left hlow hratio
  have hproduct := mul_nonneg hratio hpos.le
  linarith [abs_sub_le (shown * power) (ratio * power) (ratio * used)]

/-- What is shown is not another power of ten than the quotient. -/
theorem abs_shown_sub_le_of_quotient {q mantissa : Double} {ratio value magnitude : ℚ}
    (hratio : 1 - 1 / 10 ^ 15 ≤ ratio) (hq : q.abs.RoundsTo ratio)
    (hvalue : |value - (|q.toRat|)| ≤ 1 / 2) (hmantissa : mantissa.abs.RoundsTo value)
    {shift : Int} (hshift : IsCarried mantissa value magnitude shift) :
    |magnitude * 10 ^ shift - ratio| ≤ 62 / 100 * ratio := by
  norm_num at hratio
  have hquotient := hq.abs_sub_le_of_ge (K := -1) (by decide) (by norm_num; linarith)
  rw [toRat_abs] at hquotient
  obtain ⟨hquotientLow, hquotientHigh⟩ := abs_le.1 hquotient
  obtain ⟨hvalueLow, hvalueHigh⟩ := abs_le.1 hvalue
  norm_num at hquotientLow hquotientHigh
  have hclose := hmantissa.abs_sub_le_of_ge (K := -1) (by decide) (by norm_num; linarith)
  rw [toRat_abs] at hclose
  rcases hshift with ⟨-, rfl, rfl⟩ | ⟨hten, hshown, rfl⟩
  · rw [zpow_zero, mul_one, abs_le]
    norm_num
    constructor <;> linarith
  · obtain ⟨hcloseLow, hcloseHigh⟩ := abs_le.1 hclose
    obtain ⟨hshownLow, hshownHigh⟩ := abs_le.1 hshown
    rw [zpow_one, abs_le]
    norm_num at hcloseLow hcloseHigh ⊢
    constructor <;> linarith

theorem abs_mul_sub_le_of_div {magnitude v t : ℚ} (ht : 0 < t)
    (h : |magnitude - v / t| ≤ v / t / 10 ^ 11) : |magnitude * t - v| ≤ v / 10 ^ 11 := by
  have hmul := mul_le_mul_of_nonneg_right h ht.le
  rwa [abs_sub_div_mul ht, div_mul_eq_mul_div, div_mul_cancel₀ _ ht.ne'] at hmul

/-- A number over the power of ten of its exponent. -/
theorem quotient_of_scaleDown {x q : Double} {e : Int} (hx : x.isFiniteNonzero = true)
    (he : x.decimalExponent = .ok e) (hq : scaleDown x e = .ok q) :
    -323 ≤ e ∧ q.isNegative = x.isNegative ∧ q.abs.RoundsTo (|x.toRat| / (tenPow e).toRat) ∧
      |q.toRat| ≤ 20 := by
  obtain ⟨hleast, hhigh⟩ := decimalExponent_bounds he
  have hlow : -323 ≤ e := by
    by_contra hlt
    obtain rfl : e = -324 := by omega
    rw [scaleDown, if_pos isZero_tenPow_lowest] at hq
    exact absurd hq (by simp)
  have hupper := (decimalExponent_bounds_abs hx he).1
  obtain ⟨hnegative, hrounds⟩ := roundsTo_scaleDown (Bool.and_eq_true_iff.1 hx).1 hlow hhigh
    (hupper.trans_le (zpow_le_zpow_right₀ (by norm_num) (by omega))) hq
  have hle := hrounds.le_natCast (n := 20) (by decide) (by
    rw [div_le_iff₀ (toRat_tenPow_pos hlow hhigh)]
    rw [zpow_add_one₀ (by norm_num)] at hupper
    push_cast
    linarith [(le_two_mul_tenPow hlow hhigh).2])
  rw [toRat_abs, Nat.cast_ofNat] at hle
  exact ⟨hlow, hnegative, hrounds, hle⟩

section Quotient

variable {x rounded q mantissa : Double} {digits e e' shift : Int} {n N : Nat} {magnitude : ℚ}
  (h : Rounding x rounded digits e n) (hx : x.isFiniteNonzero = true)
  (he' : rounded.decimalExponent = .ok e')
  (hq : q.abs.RoundsTo (|rounded.toRat| / (tenPow e').toRat))
  (hN : IsRounded N (|q.toRat| / 10 ^ (-min (digits - 1) exactPlaces)))

include h hx he' hq

/-- Where powers of ten have all their bits, the quotient is near the number over the true power. -/
theorem quotient_bounds (hlow : -307 ≤ e') :
    9 / 10 ≤ |rounded.toRat| / 10 ^ e' ∧ |rounded.toRat| / 10 ^ e' < 10 ∧
      |(|q.toRat|) - |rounded.toRat| / 10 ^ e'| ≤ 8 / 10 ^ 16 * (|rounded.toRat| / 10 ^ e') := by
  have hpow := ten_zpow_pos e'
  obtain ⟨hupper, hlower⟩ := decimalExponent_bounds_abs (h.isFiniteNonzero hx) he'
  rw [zpow_add_one₀ (by norm_num)] at hupper
  have hquotient := abs_quotient_sub_le hlow (decimalExponent_bounds he').2 (by linarith) hq
  rw [toRat_abs] at hquotient
  refine ⟨?_, ?_, hquotient⟩
  · rw [le_div_iff₀ hpow]
    linarith
  · rw [div_lt_iff₀ hpow]
    linarith

include hN

/-- To few digits the steps of the quotient are those of the decimal. -/
theorem steps_of_quotient_of_few (hlow : -307 ≤ e') (hfew : digits ≤ 13) :
    (N * 10 ^ (-min (digits - 1) exactPlaces) : ℚ) ≤ 10 - 6 / 10 ^ 13 ∧
      |N * 10 ^ (-min (digits - 1) exactPlaces) - |rounded.toRat| / 10 ^ e'| ≤
        |rounded.toRat| / 10 ^ e' / 10 ^ 11 := by
  have hpow := ten_zpow_pos e'
  obtain ⟨hratioLow, hratioHigh, hquotient⟩ := quotient_bounds h hx he' hq hlow
  obtain ⟨m, hm, -, hvalue⟩ := h.exists_steps_of_few hx he' hlow hfew
  have hnear := h.abs_rounded_sub_le_of_normal hx he' hlow
  have hplaces : e' + 1 - digits = e' + -min (digits - 1) exactPlaces := by
    rw [exactPlaces]
    omega
  rw [hm, hplaces, zpow_add₀ (by norm_num)] at hnear
  rw [hplaces, zpow_add_one₀ (by norm_num), zpow_add₀ (by norm_num)] at hvalue
  have hstep : (1 : ℚ) / 10 ^ 12 ≤ 10 ^ (-min (digits - 1) exactPlaces) := by
    rw [one_div, ← zpow_natCast, ← zpow_neg]
    exact zpow_le_zpow_right₀ (by norm_num) (by push_cast; omega)
  have hspos := ten_zpow_pos (-min (digits - 1) exactPlaces)
  generalize (10 : ℚ) ^ (-min (digits - 1) exactPlaces) = step at *
  generalize hratio : |rounded.toRat| / 10 ^ e' = ratio at *
  rw [div_eq_iff hpow.ne'] at hratio
  rw [hratio, show ratio * 10 ^ e' - m * (10 ^ e' * step) = (ratio - m * step) * 10 ^ e' by ring,
    abs_mul, abs_of_pos hpow, ← mul_assoc, mul_le_mul_iff_left₀ hpow] at hnear
  have hvalue' : m * step + step ≤ 10 := by
    have hmul : (m * step + step) * 10 ^ e' ≤ 10 * 10 ^ e' := by linarith
    exact le_of_mul_le_mul_right hmul hpow
  obtain rfl : N = m := by
    refine hN.unique (isRounded_div_of_lt hspos ?_)
    have htriangle := abs_sub_le (m * step) ratio (|q.toRat|)
    rw [abs_sub_comm (m * step) ratio, abs_sub_comm ratio (|q.toRat|)] at htriangle
    linarith
  refine ⟨by linarith, ?_⟩
  rw [abs_sub_comm]
  linarith

/-- To many digits the steps are small, and the number is not just below the next power. -/
theorem steps_of_quotient_of_many (hlow : -307 ≤ e') (hmany : 13 < digits)
    (hnot : ¬rounded.IsJustBelow) :
    (N * 10 ^ (-min (digits - 1) exactPlaces) : ℚ) ≤ 10 - 6 / 10 ^ 13 ∧
      |N * 10 ^ (-min (digits - 1) exactPlaces) - |rounded.toRat| / 10 ^ e'| ≤
        |rounded.toRat| / 10 ^ e' / 10 ^ 11 := by
  obtain ⟨hratioLow, hratioHigh, hquotient⟩ := quotient_bounds h hx he' hq hlow
  obtain ⟨-, hbelow⟩ := bounds_of_not_isJustBelow (h.isFiniteNonzero hx) he' hnot
  have hstep : (10 : ℚ) ^ (-min (digits - 1) exactPlaces) ≤ 1 / 10 ^ 13 := by
    rw [one_div, ← zpow_natCast, ← zpow_neg]
    refine zpow_le_zpow_right₀ (by norm_num) ?_
    rw [exactPlaces]
    push_cast
    omega
  have hratioBelow : |rounded.toRat| / 10 ^ e' ≤ (1 - 7 / 10 ^ 14) * 10 := by
    rw [zpow_add_one₀ (by norm_num)] at hbelow
    rw [div_le_iff₀ (ten_zpow_pos e')]
    linarith
  have hclose := hN.abs_mul_sub_le (ten_zpow_pos _)
  generalize (10 : ℚ) ^ (-min (digits - 1) exactPlaces) = step at *
  generalize |rounded.toRat| / 10 ^ e' = ratio at *
  have htriangle := abs_sub_le (N * step) |q.toRat| ratio
  have habove := (abs_le.1 (htriangle.trans (add_le_add hclose hquotient))).2
  norm_num at *
  constructor <;> linarith

variable (hexact : digits ≤ 13 ∨ ¬rounded.IsJustBelow)
  (hmantissa : mantissa.abs.RoundsTo (N * 10 ^ (-min (digits - 1) exactPlaces)))
  (hshift : IsCarried mantissa (N * 10 ^ (-min (digits - 1) exactPlaces)) magnitude shift)

include hexact hmantissa hshift

/-- Where powers of ten have all their bits, the mantissa shows the number, and is not carried. -/
theorem abs_shown_sub_le_of_normal (hlow : -307 ≤ e')
    (hone : (1 : ℚ) ≤ N * 10 ^ (-min (digits - 1) exactPlaces)) :
    |magnitude * 10 ^ (shift + e') - (|rounded.toRat|)| ≤ |rounded.toRat| / 10 ^ 11 := by
  obtain ⟨hten, hclose⟩ : (N * 10 ^ (-min (digits - 1) exactPlaces) : ℚ) ≤ 10 - 6 / 10 ^ 13 ∧
      |N * 10 ^ (-min (digits - 1) exactPlaces) - |rounded.toRat| / 10 ^ e'| ≤
        |rounded.toRat| / 10 ^ e' / 10 ^ 11 := by
    rcases le_or_gt digits 13 with hfew | hmany
    · exact steps_of_quotient_of_few h hx he' hq hN hlow hfew
    · exact steps_of_quotient_of_many h hx he' hq hN hlow hmany
        (hexact.resolve_left (not_le.2 hmany))
  have hnear := (abs_le.1 (hmantissa.abs_sub_le_of_ge (K := 0) (by decide) (by rwa [zpow_zero]))).2
  rw [toRat_abs] at hnear
  obtain ⟨-, rfl, rfl⟩ | ⟨hcarried, -⟩ := hshift
  · rw [zero_add]
    exact abs_mul_sub_le_of_div (ten_zpow_pos e') hclose
  · norm_num at hten hnear
    linarith

/-- Among the least powers of ten the mantissa is not that of another power. -/
theorem abs_shown_sub_le_of_least (hlow : -323 ≤ e') (hleast : e' < -307) :
    |magnitude * 10 ^ (shift + e') - (|rounded.toRat|)| ≤ 2 / 3 * |rounded.toRat| := by
  have hpower := toRat_tenPow_pos hlow (by omega)
  have hdigits := h.digits_pos
  have hstep : (10 : ℚ) ^ (-min (digits - 1) exactPlaces) ≤ 1 := by
    refine zpow_le_one_of_nonpos₀ (by norm_num) ?_
    rw [exactPlaces]
    omega
  have hshown := hN.abs_mul_sub_le (ten_zpow_pos _)
  have hratio : 1 - 1 / 10 ^ 15 ≤ |rounded.toRat| / (tenPow e').toRat := by
    rw [le_div_iff₀ hpower]
    rcases h.tenPow_le_or hx he' hexact with hle | ⟨-, hle⟩
    · norm_num
      linarith
    · exact hle
  have hclose := abs_shown_sub_le_of_quotient hratio hq (hshown.trans (by linarith)) hmantissa
    hshift
  rw [← div_mul_cancel₀ |rounded.toRat| hpower.ne', zpow_add₀ (by norm_num), ← mul_assoc]
  exact abs_mul_sub_mul_le (by linarith) hpower (abs_tenPow_sub_le_of_lt hlow hleast) hclose

end Quotient

/-- The mantissa of scientific notation is normalized. -/
theorem exists_of_scientific {x rounded : Double} {digits e : Int} {n : Nat} {unicode : Bool}
    {t : String} (h : Rounding x rounded digits e n) (hx : x.isFiniteNonzero = true)
    (hexact : digits ≤ 13 ∨ ¬rounded.IsJustBelow)
    (ht : scientificRounded rounded digits unicode = .ok t) :
    ∃ numeral exponent, t = numeral ++ powerText exponent unicode ∧
      ShowsNormalized numeral rounded 10 exponent := by
  have hrounded := h.isFiniteNonzero hx
  obtain ⟨e', q, mantissa, numeral, he', hq, hmantissa, hnumeral, rfl⟩ :=
    exists_of_scientificRounded hrounded ht
  obtain ⟨hlow, hnegative, hrounds, htop⟩ := quotient_of_scaleDown hrounded he' hq
  have hfinite : q.isFinite = true := isFinite_abs q ▸ hrounds.isFinite
  have hpower := toRat_tenPow_pos hlow (decimalExponent_bounds he').2
  have hdigits := h.digits_pos
  have hplaces : 0 ≤ min (digits - 1) exactPlaces := by
    rw [exactPlaces]
    omega
  obtain ⟨steps, hsteps, hrounds', hnegative'⟩ :=
    exists_steps_of_roundPlaces hfinite (by omega) hmantissa
  have hone : (1 : ℚ) ≤ steps * 10 ^ (-min (digits - 1) exactPlaces) := by
    refine one_le_steps hplaces hrounds hsteps ?_
    rw [one_le_div hpower, le_div_iff₀ hpower]
    exact (h.tenPow_le_or hx he' hexact).imp_right (And.imp_left fun hfew ↦ by omega)
  obtain ⟨d, magnitude, hd, hbelow, habove, hshift⟩ :=
    exists_shows_of_carry hfinite hplaces hsteps hrounds' hone htop hnumeral
  rw [hnegative', hnegative] at hd
  refine ⟨numeral, _, rfl, d, magnitude, hd, hbelow, habove, ?_⟩
  rw [← sub_add_cancel (carry mantissa e').2 e']
  rcases lt_or_ge e' (-307) with hleast | hnormal
  · have hsmall : ¬10 ^ (-307 : Int) ≤ |rounded.toRat| :=
      not_le.2 ((decimalExponent_bounds_abs hrounded he').1.trans_le
        (zpow_le_zpow_right₀ (by norm_num) (by omega)))
    rw [shownTolerance, if_neg hsmall]
    exact abs_shown_sub_le_of_least h hx he' hrounds hsteps hexact hrounds' hshift hlow hleast
  · exact le_shownTolerance_mul
      (abs_shown_sub_le_of_normal h hx he' hrounds hsteps hexact hrounds' hshift hnormal hone)

/-- Scientific notation in plain text has no space. -/
theorem space_notMem_scientific {x : Scalar} {digits : Int} {t : String}
    (h : scientific x digits false = .ok t) : ' ' ∉ t.toList := by
  obtain ⟨rounded, -, h⟩ := exists_of_bind_eq_ok h
  rcases exists_numeral_of_scientificRounded (ok_of_mapError_eq_ok h) with hname | ⟨d, hd⟩
  · exact (by decide : ∀ name ∈ nonfiniteTexts, ' ' ∉ name.toList) t hname
  · rw [hd]
    exact fun hspace ↦ d.notMem_compoundMarks hspace (by decide)

end Metrology.Rendering
