import Metrology.Proofs.Double.Exponent
import Metrology.Proofs.Registry.Valid
import Metrology.Proofs.Rendering.Totality

/-!
# Which decimal a number is rounded to

Rounding a double to significant digits takes two steps, to the nearest whole number of steps of a
power of ten and from there to the nearest double; `Rounding` says both of a result. The power comes
from the decimal exponent, which just below a power of ten may be one too large.

* The decimal is the one asked for (`Rounding.isDecimalOf`): of a number that is not just below a
  power of ten the exponent is right, and to twelve digits the others are rounded up to the power,
  which is a whole number of the smaller steps too.
* Rounding once more changes nothing (`Rounding.again`). The exponent of the rounded number may be
  the next one, if the decimal is a power of ten, or the one before, if the power is rounded to a
  double below it; the second happens only among the least magnitudes.

Both make up `roundSignificant_nearest`.
-/

namespace Metrology.Rendering

open Double

/-! ### Rounding in two steps -/

theorem exists_roundPlaces {negative : Bool} {rank : Fin rankCount} {places : Int}
    {rounded : Double} (hlow : -308 ≤ places)
    (h : (finite negative rank).roundPlaces places = .ok rounded) :
    rounded.isNegative = negative ∧ rounded.abs.RoundsTo (roundedAt rank places) := by
  have hnonneg : 0 ≤ roundedAt rank places := decimal_nonneg _ _
  rcases lt_or_ge 323 places with hmany | hfew
  · rw [roundPlaces, if_pos hmany] at h
    obtain rfl := Except.ok.inj h
    refine ⟨rfl, (roundsTo_abs_iff hnonneg).2 (cell_of_small_step hnonneg ?_)⟩
    refine (abs_roundedAt_sub_le rank places).trans (div_le_div_of_nonneg_right ?_ zero_le_two)
    exact zpow_le_zpow_right₀ (by norm_num) (by omega)
  · rcases lt_or_ge (roundedAt rank places) limit with hlt | hge
    · obtain ⟨r, heq, hcell⟩ := exists_roundPlaces_eq negative hlow hfew hlt
      rw [heq] at h
      obtain rfl := Except.ok.inj h
      exact ⟨rfl, (roundsTo_abs_iff hnonneg).2 hcell⟩
    · rw [roundPlaces_overflow negative hlow hfew hge] at h
      exact absurd h (by simp)

/-- How a number is rounded to digits: its decimal exponent, the number of steps, and the double
that is nearest to them. -/
structure Rounding (x rounded : Double) (digits exponent : Int) (steps : Nat) : Prop where
  digits_pos : 1 ≤ digits
  exponent_eq : x.decimalExponent = .ok exponent
  steps_isRounded : IsRounded steps (|x.toRat| / 10 ^ (exponent + 1 - digits))
  roundsTo : rounded.abs.RoundsTo (steps * 10 ^ (exponent + 1 - digits))
  isNegative_eq : rounded.isNegative = x.isNegative

theorem one_le_digits {x rounded : Double} {digits : Int}
    (h : roundSignificant (.double x) digits = .ok rounded) : 1 ≤ digits := by
  by_contra hlt
  rw [roundSignificant, if_pos (by omega)] at h
  exact absurd h (by simp)

theorem exists_rounding {x rounded : Double} {digits : Int} (hx : x.isFiniteNonzero = true)
    (h : roundSignificant (.double x) digits = .ok rounded) :
    ∃ exponent steps, Rounding x rounded digits exponent steps := by
  have hdigits := one_le_digits h
  rw [roundSignificant_double hdigits] at h
  have h := ok_of_mapError_eq_ok h
  cases x with
  | nan | infinite => exact absurd hx (by simp [isFiniteNonzero])
  | finite negative rank =>
    have hrank : rank.val ≠ 0 := by simpa [isFiniteNonzero, isZero] using hx
    obtain ⟨exponent, hexponent, -⟩ := exists_decimalExponent_eq negative hrank
    have hhigh := (decimalExponent_bounds hexponent).2
    rw [roundDouble_eq hrank hexponent] at h
    obtain ⟨hsign, hrounds⟩ := exists_roundPlaces (by omega) h
    have hneg : -(digits - 1 - exponent) = exponent + 1 - digits := by ring
    refine ⟨exponent, stepsAtPlaces rank (digits - 1 - exponent), hdigits, hexponent, ?_, ?_, hsign⟩
    · have hrounded := isRounded_stepsAtPlaces rank (digits - 1 - exponent)
      rwa [hneg, ← abs_toRat_finite negative] at hrounded
    · rwa [roundedAt, hneg] at hrounds

/-! ### The decimal -/

/-- A power of ten is a whole number of steps, as many as the digits say. -/
theorem exists_zpow_eq_mul {digits : Int} (hdigits : 1 ≤ digits) (exponent : Int) : ∃ p : Nat,
    (p : ℚ) = 10 ^ (digits - 1) ∧ (10 : ℚ) ^ exponent = p * 10 ^ (exponent + 1 - digits) := by
  obtain ⟨p, hp⟩ := exists_natCast_eq_zpow (show 0 ≤ digits - 1 by omega)
  refine ⟨p, hp, ?_⟩
  rw [hp, ← zpow_add₀ (by norm_num)]
  congr 1
  ring

namespace Rounding

variable {x rounded : Double} {digits e : Int} {n : Nat} (h : Rounding x rounded digits e n)

include h

theorem abs_value_sub_le :
    |n * 10 ^ (e + 1 - digits) - (|x.toRat|)| ≤ 10 ^ (e + 1 - digits) / 2 :=
  h.steps_isRounded.abs_mul_sub_le (ten_zpow_pos _)

theorem le_of_le {m : Nat} (hle : |x.toRat| ≤ m * 10 ^ (e + 1 - digits)) : n ≤ m :=
  h.steps_isRounded.le ((div_le_iff₀ (ten_zpow_pos (e + 1 - digits))).2 hle)

theorem ge_of_ge {m : Nat} (hle : m * 10 ^ (e + 1 - digits) ≤ |x.toRat|) : m ≤ n :=
  h.steps_isRounded.ge ((le_div_iff₀ (ten_zpow_pos (e + 1 - digits))).2 hle)

theorem eq_of_near {m : Nat}
    (hclose : |m * 10 ^ (e + 1 - digits) - (|x.toRat|)| < 10 ^ (e + 1 - digits) / 2) : n = m :=
  h.steps_isRounded.unique (isRounded_div_of_lt (ten_zpow_pos _) hclose)

/-- The decimal is at most the power of ten after the decimal exponent. -/
theorem value_le (hx : x.isFiniteNonzero = true) :
    (n * 10 ^ (e + 1 - digits) : ℚ) ≤ 10 ^ (e + 1) := by
  obtain ⟨p, -, hp⟩ := exists_zpow_eq_mul h.digits_pos e
  have hten : (10 : ℚ) ^ (e + 1) = (10 * p : ℕ) * 10 ^ (e + 1 - digits) := by
    rw [zpow_add_one₀ (by norm_num), hp]
    push_cast
    ring
  have hsteps := h.le_of_le (m := 10 * p)
    (hten ▸ (decimalExponent_bounds_abs hx h.exponent_eq).1.le)
  rw [hten]
  exact mul_le_mul_of_nonneg_right (by exact_mod_cast hsteps) (ten_zpow_pos (e + 1 - digits)).le

/-- The decimal of a number from a power of ten on is not below that power. -/
theorem le_value (hle : 10 ^ e ≤ |x.toRat|) : (10 : ℚ) ^ e ≤ n * 10 ^ (e + 1 - digits) := by
  obtain ⟨p, -, hp⟩ := exists_zpow_eq_mul h.digits_pos e
  rw [hp] at hle ⊢
  exact mul_le_mul_of_nonneg_right (by exact_mod_cast h.ge_of_ge hle) (ten_zpow_pos _).le

/-- A number just below a power of ten is rounded to it, if few digits are asked for. -/
theorem value_eq (hx : x.isFiniteNonzero = true) (hdigits : digits ≤ 12)
    (hlt : |x.toRat| < 10 ^ e) : (n * 10 ^ (e + 1 - digits) : ℚ) = 10 ^ e := by
  obtain ⟨p, -, hp⟩ := exists_zpow_eq_mul h.digits_pos e
  have hstep : (10 : ℚ) ^ e / 10 ^ 12 ≤ 10 ^ (e + 1 - digits) / 10 := by
    have htenth : (10 : ℚ) ^ (e + 1 - digits) / 10 = 10 ^ (e - digits) := by
      rw [show e + 1 - digits = e - digits + 1 by ring, zpow_add_one₀ (by norm_num),
        mul_div_cancel_right₀ _ (by norm_num)]
    rw [htenth, ← zpow_natCast, ← zpow_sub₀ (by norm_num)]
    exact zpow_le_zpow_right₀ (by norm_num) (by push_cast; omega)
  have hpos : (0 : ℚ) < 10 ^ e := by positivity
  have hlow := (decimalExponent_bounds_abs hx h.exponent_eq).2
  rw [hp, h.eq_of_near (m := p)]
  rw [← hp, abs_of_pos (by linarith)]
  linarith

/-- The number itself is no nearer to the decimal than what it is rounded to. -/
theorem abs_rounded_sub_le (hx : x.isFiniteNonzero = true) :
    |(|rounded.toRat|) - n * 10 ^ (e + 1 - digits)| ≤
      |(|x.toRat|) - n * 10 ^ (e + 1 - digits)| :=
  h.roundsTo.abs_toRat_sub_le (Bool.and_eq_true_iff.1 hx).1

theorem abs_rounded_sub_value_le (hx : x.isFiniteNonzero = true) :
    |(|rounded.toRat|) - n * 10 ^ (e + 1 - digits)| ≤ 10 ^ (e + 1 - digits) / 2 := by
  refine (h.abs_rounded_sub_le hx).trans ?_
  rw [abs_sub_comm]
  exact h.abs_value_sub_le

end Rounding

/-- The decimal that a magnitude is rounded to, with so many digits from its leading one on. -/
def IsDecimalOf (digits : Int) (magnitude decimal : ℚ) : Prop :=
  ∃ n : Nat, IsRounded n (magnitude / 10 ^ (Int.log 10 magnitude + 1 - digits)) ∧
    decimal = n * 10 ^ (Int.log 10 magnitude + 1 - digits)

section Decimal

variable {x rounded : Double} {digits e : Int} {n : Nat}

/-- The decimal is the right one, though for a number just below a power of ten it may be found as a
whole number of larger steps. -/
theorem Rounding.isDecimalOf (h : Rounding x rounded digits e n) (hx : x.isFiniteNonzero = true)
    (hexact : digits ≤ 12 ∨ ¬x.IsJustBelow) :
    IsDecimalOf digits |x.toRat| (n * 10 ^ (e + 1 - digits)) := by
  rcases decimalExponent_eq_log hx h.exponent_eq with hlog | ⟨hbelow, hlog⟩
  · exact ⟨n, hlog ▸ h.steps_isRounded, by rw [hlog]⟩
  · have hdigits := hexact.resolve_right (not_not_intro hbelow)
    have hlt : |x.toRat| < 10 ^ e := by
      rw [hlog]
      exact_mod_cast Int.lt_zpow_succ_log_self (b := 10) (by decide) |x.toRat|
    obtain ⟨p, -, hp⟩ := exists_zpow_eq_mul (show 1 ≤ digits + 1 by linarith [h.digits_pos]) e
    rw [show e + 1 - (digits + 1) = e - digits by ring] at hp
    rw [IsDecimalOf, show Int.log 10 |x.toRat| + 1 - digits = e - digits by rw [hlog],
      h.value_eq hx hdigits hlt]
    refine ⟨p, isRounded_div_of_lt (ten_zpow_pos _) ?_, hp⟩
    have hlarge : (10 : ℚ) ^ e / 10 ^ 12 ≤ 10 ^ (e - digits) := by
      rw [← zpow_natCast, ← zpow_sub₀ (by norm_num)]
      exact zpow_le_zpow_right₀ (by norm_num) (by push_cast; omega)
    have hlow := (decimalExponent_bounds_abs hx h.exponent_eq).2
    rw [← hp, abs_of_pos (by linarith)]
    have hpos := ten_zpow_pos e
    linarith

/-! ### Rounding once more -/

/-- A number that its own decimal is rounded to stays as it is. -/
theorem roundDouble_self (hx : x.isFiniteNonzero = true) (hexponent : x.decimalExponent = .ok e)
    (hdigits : 1 ≤ digits) (hsteps : IsRounded n (|x.toRat| / 10 ^ (e + 1 - digits)))
    (hrounds : x.abs.RoundsTo (n * 10 ^ (e + 1 - digits))) : roundDouble x digits = .ok x := by
  cases x with
  | nan | infinite => exact absurd hx (by simp [isFiniteNonzero])
  | finite negative rank =>
    have hrank : rank.val ≠ 0 := by simpa [isFiniteNonzero, isZero] using hx
    have hhigh := (decimalExponent_bounds hexponent).2
    have hneg : -(digits - 1 - e) = e + 1 - digits := by ring
    rw [roundDouble_eq hrank hexponent]
    rcases lt_or_ge 323 (digits - 1 - e) with hmany | hfew
    · rw [roundPlaces, if_pos hmany]
    · have hrounded := isRounded_stepsAtPlaces rank (digits - 1 - e)
      rw [hneg, ← abs_toRat_finite negative] at hrounded
      have hcell := (roundsTo_abs_iff (decimal_nonneg _ _)).1 hrounds
      rw [roundPlaces, if_neg (by omega), if_neg (by omega), hrounded.unique hsteps, hneg,
        ofDecimal_eq_of_cell negative hcell, ofRank, dif_pos rank.isLt]

section Again

variable (h : Rounding x rounded digits e n) (hx : x.isFiniteNonzero = true)

include h hx

theorem Rounding.step_le : (10 : ℚ) ^ (e + 1 - digits) ≤ n * 10 ^ (e + 1 - digits) := by
  obtain ⟨p, hpower, hp⟩ := exists_zpow_eq_mul h.digits_pos e
  have hstep := ten_zpow_pos (e + 1 - digits)
  have hp' : (1 : ℚ) ≤ p := hpower ▸ one_le_zpow₀ (by norm_num) (by linarith [h.digits_pos])
  have hlow := (decimalExponent_bounds_abs hx h.exponent_eq).2
  have hlarge : (10 : ℚ) ^ (e + 1 - digits) ≤ 10 ^ e := by
    rw [hp]
    exact le_mul_of_one_le_left hstep.le hp'
  have hn : n ≠ 0 := by
    rintro rfl
    have hclose := (abs_le.1 h.abs_value_sub_le).1
    rw [Nat.cast_zero, zero_mul] at hclose
    linarith
  exact le_mul_of_one_le_left hstep.le (by exact_mod_cast Nat.one_le_iff_ne_zero.2 hn)

theorem Rounding.isFiniteNonzero : rounded.isFiniteNonzero = true := by
  have hclose := h.abs_rounded_sub_le hx
  rw [abs_sub_comm (|x.toRat|)] at hclose
  have hlower := (abs_le.1 (hclose.trans h.abs_value_sub_le)).1
  have hstep := ten_zpow_pos (e + 1 - digits)
  exact isFiniteNonzero_of_abs_pos (by linarith [h.step_le hx])

variable {e' : Int} (hexponent : rounded.decimalExponent = .ok e')

include hexponent

/-- A rounded number of the same decimal exponent stays as it is. -/
theorem Rounding.again_of_eq (heq : e' = e) : roundDouble rounded digits = .ok rounded := by
  subst heq
  exact roundDouble_self (h.isFiniteNonzero hx) hexponent h.digits_pos
    (h.steps_isRounded.of_roundsTo (Bool.and_eq_true_iff.1 hx).1 (ten_zpow_pos _) h.roundsTo)
    h.roundsTo

/-- A number that is rounded up to a power of ten may get the exponent of this power: it is the next
one. -/
theorem Rounding.exponent_eq_of_lt (hlt : e < e') : e' = e + 1 := by
  refine le_antisymm ?_ hlt
  have habove := (abs_le.1 (h.abs_rounded_sub_value_le hx)).2
  have hvalue := h.value_le hx
  have hdigits := h.digits_pos
  have hstep : (10 : ℚ) ^ (e + 1 - digits) ≤ 10 ^ e :=
    zpow_le_zpow_right₀ (by norm_num) (by omega)
  refine Int.lt_add_one_iff.1 (exponent_lt_of_lt (h.isFiniteNonzero hx) hexponent ?_)
  have hpow := ten_zpow_pos e
  rw [zpow_add_one₀ (by norm_num)] at hvalue
  rw [zpow_add_one₀ (by norm_num), zpow_add_one₀ (by norm_num)]
  norm_num
  linarith

/-- The decimal of a number that gets the next exponent is the power of ten, since one step less
would be too far away. -/
theorem Rounding.value_eq_of_lt (hlt : e < e') (hexact : digits ≤ 12 ∨ ¬rounded.IsJustBelow) :
    (n * 10 ^ (e + 1 - digits) : ℚ) = 10 ^ (e + 1) := by
  obtain rfl := h.exponent_eq_of_lt hx hexponent hlt
  have hstep := ten_zpow_pos (e + 1 - digits)
  have hpow := ten_zpow_pos (e + 1)
  obtain ⟨p, -, hp⟩ := exists_zpow_eq_mul h.digits_pos e
  have hten : (10 : ℚ) ^ (e + 1) = (10 * p : ℕ) * 10 ^ (e + 1 - digits) := by
    rw [zpow_add_one₀ (by norm_num), hp]
    push_cast
    ring
  have hle := h.value_le hx
  rw [hten] at hle ⊢
  refine le_antisymm hle (mul_le_mul_of_nonneg_right (Nat.cast_le.2 ?_) hstep.le)
  by_contra hless
  have hone : (n : ℚ) * 10 ^ (e + 1 - digits) + 10 ^ (e + 1 - digits) ≤ 10 ^ (e + 1) := by
    rw [hten, ← add_one_mul]
    exact mul_le_mul_of_nonneg_right (by exact_mod_cast (by omega : n + 1 ≤ 10 * p)) hstep.le
  have habove := (abs_le.1 (h.abs_rounded_sub_value_le hx)).2
  have hlow := (decimalExponent_bounds_abs (h.isFiniteNonzero hx) hexponent).2
  rcases hexact with hdigits | hnot
  · have hfew : (10 : ℚ) ^ (e + 1) / 10 ^ 12 ≤ 10 ^ (e + 1 - digits) := by
      rw [← zpow_natCast, ← zpow_sub₀ (by norm_num)]
      exact zpow_le_zpow_right₀ (by norm_num) (by push_cast; omega)
    linarith
  · exact hnot ⟨e + 1, by linarith, by linarith⟩

/-- The power of ten is a whole number of the larger steps too. -/
theorem Rounding.again_of_lt (hlt : e < e') (hexact : digits ≤ 12 ∨ ¬rounded.IsJustBelow) :
    roundDouble rounded digits = .ok rounded := by
  have hvalue := h.value_eq_of_lt hx hexponent hlt hexact
  obtain rfl := h.exponent_eq_of_lt hx hexponent hlt
  obtain ⟨p, -, hp⟩ := exists_zpow_eq_mul h.digits_pos (e + 1)
  have hrounds := h.roundsTo
  have hclose := h.abs_rounded_sub_value_le hx
  rw [hvalue, hp] at hrounds hclose
  rw [abs_sub_comm] at hclose
  refine roundDouble_self (h.isFiniteNonzero hx) hexponent h.digits_pos
    (isRounded_div_of_lt (ten_zpow_pos _) (hclose.trans_lt ?_)) hrounds
  exact div_lt_div_of_pos_right (zpow_lt_zpow_right₀ (by norm_num) (by omega)) two_pos

omit hx in
/-- Among the least magnitudes, which are a unit apart, the nearest number of smaller steps is as
near as the decimal. -/
theorem Rounding.again_of_least (hrounded : rounded.isFiniteNonzero = true) (hle : e' ≤ e)
    (hleast : |rounded.toRat| * one < twoTo 52) : roundDouble rounded digits = .ok rounded := by
  cases rounded with
  | nan | infinite => exact absurd hrounded (by simp [Double.isFiniteNonzero])
  | finite negative rank =>
    have hone := one_pos'
    have hrank : rank.val ≠ 0 := by simpa [Double.isFiniteNonzero, isZero] using hrounded
    rw [abs_toRat_finite, div_mul_cancel₀ _ hone.ne'] at hleast
    have hunits := unitsOfRank_eq_self (Nat.cast_lt.1 hleast)
    have hsteps := isRounded_stepsAtPlaces rank (digits - 1 - e')
    rw [show -(digits - 1 - e') = e' + 1 - digits by ring, ← abs_toRat_finite negative] at hsteps
    refine roundDouble_self hrounded hexponent h.digits_pos hsteps
      ((roundsTo_abs_iff (decimal_nonneg _ _)).2
        (((roundsTo_abs_iff (decimal_nonneg _ _)).1 h.roundsTo).of_abs_sub_le
          (Nat.pos_of_ne_zero hrank) (hunits ▸ Nat.cast_lt.1 hleast) ?_))
    -- the decimal is a number of the smaller steps
    obtain ⟨p, hp⟩ := Int.eq_ofNat_of_zero_le (show 0 ≤ e - e' by omega)
    have hdecimal : (n * 10 ^ (e + 1 - digits) : ℚ) =
        (n * 10 ^ p : ℕ) * 10 ^ (e' + 1 - digits) := by
      rw [show e + 1 - digits = p + (e' + 1 - digits) by omega, zpow_add₀ (by norm_num),
        zpow_natCast]
      push_cast
      ring
    have hstep := ten_zpow_pos (e' + 1 - digits)
    have hscale : ∀ decimal : ℚ, |decimal * one - (rank.val : ℚ)| =
        |decimal - (|(finite negative rank).toRat|)| * one := fun decimal ↦ by
      rw [abs_toRat_finite, abs_sub_div_mul hone, hunits]
    have hnearest := mul_le_mul_of_nonneg_right (hsteps.nearest (n * 10 ^ p)) hstep.le
    rw [abs_sub_div_mul hstep, abs_sub_div_mul hstep, ← hdecimal] at hnearest
    rw [hscale, hscale]
    exact mul_le_mul_of_nonneg_right hnearest hone.le

/-- A number from a power of ten on may be rounded to a double below it. Then the power is what is
rounded, and it is one of those that are so small that doubles are a unit apart. -/
theorem Rounding.again_of_gt (hlt : e' < e) (hexact : digits ≤ 12 ∨ ¬x.IsJustBelow) :
    roundDouble rounded digits = .ok rounded := by
  have hrounded := h.isFiniteNonzero hx
  have hbelow : |rounded.toRat| < 10 ^ e :=
    (decimalExponent_bounds_abs hrounded hexponent).1.trans_le
      (zpow_le_zpow_right₀ (by norm_num) (by omega))
  rcases lt_or_ge e (-307) with hsmall | hlarge
  · have hbound := (mul_lt_mul_of_pos_right hbelow one_pos').trans_le
      (ten_zpow_mul_one_le (show e ≤ -308 by omega))
    exact h.again_of_least hexponent hrounded hlt.le hbound
  · -- the power of ten lies between the double and the decimal
    have hvalue : (10 : ℚ) ^ e ≤ n * 10 ^ (e + 1 - digits) := by
      rcases le_or_gt (10 ^ e) |x.toRat| with hle | hgt
      · exact h.le_value hle
      · have hdigits := hexact.resolve_right (not_not_intro
          ⟨e, by linarith [(decimalExponent_bounds_abs hx h.exponent_eq).2, ten_zpow_pos e], hgt⟩)
        exact (h.value_eq hx hdigits hgt).ge
    have hpower : rounded.abs.RoundsTo (10 ^ e) :=
      h.roundsTo.of_between hbelow.le hvalue
    exact absurd (exponent_of_roundsTo_zpow hrounded hexponent hlarge
      (decimalExponent_bounds h.exponent_eq).2 hpower) hlt.ne

end Again

end Decimal

/-! ### Significant digits -/

theorem Rounding.again {x rounded : Double} {digits e : Int} {n : Nat}
    (h : Rounding x rounded digits e n) (hx : x.isFiniteNonzero = true)
    (hexact : digits ≤ 12 ∨ ¬x.IsJustBelow) (hexact' : digits ≤ 12 ∨ ¬rounded.IsJustBelow) :
    roundSignificant (.double rounded) digits = .ok rounded := by
  rw [roundSignificant_double h.digits_pos]
  have hrounded := h.isFiniteNonzero hx
  obtain ⟨e', hexponent⟩ : ∃ e', rounded.decimalExponent = .ok e' := by
    cases rounded with
    | nan | infinite => exact absurd hrounded (by simp [Double.isFiniteNonzero])
    | finite negative rank =>
      obtain ⟨e', hexponent, -⟩ := exists_decimalExponent_of_finite negative rank
      exact ⟨e', hexponent⟩
  rcases lt_trichotomy e e' with hlt | heq | hgt
  · rw [h.again_of_lt hx hexponent hlt hexact', arithmetic_ok]
  · rw [h.again_of_eq hx hexponent heq.symm, arithmetic_ok]
  · rw [h.again_of_gt hx hexponent hgt hexact, arithmetic_ok]

/-- **Rounding to significant digits** gives the double nearest to the decimal of so many digits
that is nearest to the number, and rounding once more changes nothing. Beyond twelve digits this
needs that the number, and the one it is rounded to, are not just below a power of ten: there the
decimal exponent may be that of the power. -/
theorem roundSignificant_nearest {x rounded : Double} {digits : Int}
    (hx : x.isFiniteNonzero = true) (h : roundSignificant (.double x) digits = .ok rounded)
    (hexact : digits ≤ 12 ∨ ¬x.IsJustBelow) :
    (rounded.isNegative = x.isNegative ∧
      ∃ decimal, IsDecimalOf digits |x.toRat| decimal ∧ rounded.abs.IsNearest decimal) ∧
    (digits ≤ 12 ∨ ¬rounded.IsJustBelow →
      roundSignificant (.double rounded) digits = .ok rounded) := by
  obtain ⟨e, n, hrounding⟩ := exists_rounding hx h
  exact ⟨⟨hrounding.isNegative_eq, _, hrounding.isDecimalOf hx hexact,
    hrounding.roundsTo.isNearest⟩, hrounding.again hx hexact⟩

/-- Two thirds to three digits. -/
theorem roundSignificant_two_thirds : roundSignificant (.double (2 / 3)) 3 = .ok 0.667 ∧
    roundSignificant (.double 0.667) 3 = .ok 0.667 := by
  have hrounded : roundSignificant (.double (2 / 3)) 3 = .ok 0.667 := by
    rw [roundSignificant_double (by decide),
      show roundDouble (2 / 3) 3 = .ok 0.667 by decide +kernel, arithmetic_ok]
  exact ⟨hrounded, (roundSignificant_nearest (by decide +kernel) hrounded
    (Or.inl (by decide))).2 (Or.inl (by decide))⟩

/-- Of a number just below a power of ten sixteen digits are asked for, and fifteen are kept. -/
theorem roundSignificant_just_below :
    roundSignificant (.double 999999999999999.9) 16 = .ok 1e15 ∧
      ∃ decimal, IsDecimalOf 16 |(999999999999999.9 : Double).toRat| decimal ∧
        ¬(1e15 : Double).IsNearest decimal := by
  have hx : (999999999999999.9 : Double).isFinite = true ∧
      (999999999999999.9 : Double).toRat = 7999999999999999 / 8 := by decide +kernel
  have hrounded : (1e15 : Double).toRat = 10 ^ 15 := by decide +kernel
  have hlog : Int.log 10 (7999999999999999 / 8 : ℚ) = 14 := by
    have hlow := (Int.zpow_le_iff_le_log (b := 10) (x := 14) (by decide)
      (show (0 : ℚ) < 7999999999999999 / 8 by norm_num)).1 (by norm_num)
    have hhigh := (Int.lt_zpow_iff_log_lt (b := 10) (x := 15) (by decide)
      (show (0 : ℚ) < 7999999999999999 / 8 by norm_num)).1 (by norm_num)
    omega
  refine ⟨?_, 9999999999999999 / 10, ⟨9999999999999999, ?_, ?_⟩, fun hnearest ↦ ?_⟩
  · rw [roundSignificant_double (by decide),
      show roundDouble 999999999999999.9 16 = .ok 1e15 by decide +kernel, arithmetic_ok]
  · rw [hx.2, abs_of_pos (by norm_num), hlog]
    exact isRounded_of_lt (by norm_num [abs_lt])
  · rw [hx.2, abs_of_pos (by norm_num), hlog]
    norm_num
  · -- the number itself is nearer
    have hclose := hnearest.abs_sub_le _ hx.1
    rw [hrounded, hx.2] at hclose
    norm_num at hclose

end Metrology.Rendering
