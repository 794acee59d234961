import Metrology.Proofs.Double.Scaling

/-!
# Rounding to significant digits

Rounding a double to significant digits fails in one way, beyond the largest double, and
`Double.RoundsBeyond` says for which numbers and digits that is: the number is rounded to the place
of its last digit counted from `10 ^ 308`, and what comes out is not below the limit of the doubles.

That the place may be counted from there has two reasons. A number that is large enough for it has
the decimal exponent `308`, although it is computed in doubles (`decimalExponent_highest`); and any
other is too far from the limit for half a step of any place (`roundedAt_lt_limit`).

A rounded number is not carried beyond by being rounded once more
(`not_roundsBeyond_of_roundDouble`): it is a whole number of the same steps, up to what a double
differs from it, and that is less than half a step where steps are large enough to matter.
-/

namespace Metrology

namespace Double

/-- Rounding to significant digits carries a number beyond the largest double. -/
def RoundsBeyond (x : Double) (digits : Int) : Prop :=
  ∃ negative rank, x = finite negative rank ∧ limit ≤ roundedAt rank (digits - 309)

instance (x : Double) (digits : Int) : Decidable (x.RoundsBeyond digits) :=
  match x with
  | nan | infinite _ => isFalse nofun
  | finite negative rank => decidable_of_iff (limit ≤ roundedAt rank (digits - 309))
      ⟨fun h ↦ ⟨negative, rank, rfl, h⟩, fun ⟨_, _, heq, h⟩ ↦ (finite.inj heq).2 ▸ h⟩

/-! ### How far the limit is -/

theorem roundedAt_le (rank : Nat) (places : Int) :
    roundedAt rank places ≤ unitsOfRank rank / one + 10 ^ (-places) / 2 := by
  linarith [(abs_le.1 (abs_roundedAt_sub_le rank places)).2]

theorem unitsOfRank_div_one_le {rank bound : Nat} (h : unitsOfRank rank ≤ bound * one) :
    (unitsOfRank rank / one : ℚ) ≤ bound := by
  rw [div_le_iff₀ one_pos', ← Nat.cast_mul]
  exact Nat.cast_le.2 h

theorem ten_zpow_neg_le {places : Int} {n : Nat} (h : -(n : Int) ≤ places) :
    (10 : ℚ) ^ (-places) ≤ tenTo n := by
  rw [tenTo_eq, ← zpow_natCast]
  exact zpow_le_zpow_right₀ (by norm_num) (by omega)

/-- What is left below the limit, in terms of the steps that numbers are rounded to. -/
theorem steps_below_limit :
    (tenTo 308 + 23 * twoTo 1019 * 2 < (twoTo 1024 - twoTo 970) * 2 ∧
      tenTo 292 + (twoTo 1024 - twoTo 971) * 2 < (twoTo 1024 - twoTo 970) * 2) ∧
    (23 * twoTo 1019 + tenTo 307 + twoTo 972 < twoTo 1024 - twoTo 970 ∧
      2 * (23 * twoTo 1019) + tenTo 307 + 2 * twoTo 972 < 3 * tenTo 308) ∧
    2 * twoTo 972 < tenTo 293 := by
  decide +kernel

/-- A number that is not close to the limit stays below it, to whatever place it is rounded. -/
theorem roundedAt_lt_limit {rank : Nat} (h : unitsOfRank rank < 23 * (twoTo 1019 * one))
    {places : Int} (hplaces : -308 ≤ places) : roundedAt rank places < limit := by
  have hrounded := roundedAt_le rank places
  have hunits : (unitsOfRank rank / one : ℚ) ≤ (23 * twoTo 1019 : ℕ) :=
    unitsOfRank_div_one_le (by rw [Nat.mul_assoc]; exact h.le)
  have hstep := ten_zpow_neg_le (n := 308) hplaces
  have hsum : ((23 * twoTo 1019 : ℕ) : ℚ) + (tenTo 308 : ℕ) / 2 < limit := by
    rw [limit, ← lt_sub_iff_add_lt', div_lt_iff₀ two_pos, sub_mul, lt_sub_iff_add_lt]
    exact_mod_cast steps_below_limit.1.1
  generalize ((23 * twoTo 1019 : ℕ) : ℚ) = bound at *
  linarith

/-- The largest double stays below the limit where the steps are smaller than its distance. -/
theorem roundedAt_lt_limit_of_le (rank : Fin rankCount) {places : Int} (hplaces : -292 ≤ places) :
    roundedAt rank places < limit := by
  have hrounded := roundedAt_le rank places
  have hunits : (unitsOfRank rank / one : ℚ) ≤ (twoTo 1024 - twoTo 971 : ℕ) := by
    refine unitsOfRank_div_one_le (range_ends.1.2.1 ▸ unitsOfRank_strictMono.monotone ?_)
    have hlt := rank.isLt
    omega
  have hstep := ten_zpow_neg_le (n := 292) hplaces
  have hsum : ((twoTo 1024 - twoTo 971 : ℕ) : ℚ) + (tenTo 292 : ℕ) / 2 < limit := by
    rw [limit, ← lt_sub_iff_add_lt', div_lt_iff₀ two_pos, sub_mul, lt_sub_iff_add_lt]
    exact_mod_cast steps_below_limit.1.2
  linarith

/-! ### When rounding goes beyond -/

section RoundsBeyond

variable {negative : Bool} {rank : Fin rankCount} {digits exponent : Int}

theorem roundsBeyond_finite : (finite negative rank).RoundsBeyond digits ↔
    limit ≤ roundedAt rank (digits - 309) := by
  constructor
  · rintro ⟨_, _, heq, h⟩
    obtain ⟨-, rfl⟩ := finite.inj heq
    exact h
  · exact fun h ↦ ⟨negative, rank, rfl, h⟩

/-- The place to round to may be counted from the decimal exponent. -/
theorem roundsBeyond_iff (hdigits : 1 ≤ digits)
    (hexponent : (finite negative rank).decimalExponent = .ok exponent) :
    (finite negative rank).RoundsBeyond digits ↔
      limit ≤ roundedAt rank (digits - 1 - exponent) := by
  rw [roundsBeyond_finite]
  rcases Nat.lt_or_ge (unitsOfRank rank) (23 * (twoTo 1019 * one)) with hlt | hge
  · have hbelow := (decimalExponent_bounds hexponent).2
    exact iff_of_false (not_le.2 (roundedAt_lt_limit hlt (by omega)))
      (not_le.2 (roundedAt_lt_limit hlt (by omega)))
  · obtain rfl : 308 = exponent :=
      Except.ok.inj ((decimalExponent_highest negative hge).symm.trans hexponent)
    rw [Int.sub_sub]
    rfl

theorem not_roundsBeyond_of_lt (h : unitsOfRank rank < 23 * (twoTo 1019 * one))
    (hdigits : 1 ≤ digits) : ¬(finite negative rank).RoundsBeyond digits := fun hbeyond ↦
  absurd (roundsBeyond_finite.1 hbeyond) (not_le.2 (roundedAt_lt_limit h (by omega)))

end RoundsBeyond

end Double

namespace Rendering

open Double

/-! ### Rounding to significant digits -/

section RoundDouble

variable {negative : Bool} {rank : Fin rankCount} {digits exponent : Int}

theorem roundDouble_eq (hrank : rank.val ≠ 0)
    (hexponent : (finite negative rank).decimalExponent = .ok exponent) :
    roundDouble (finite negative rank) digits =
      (finite negative rank).roundPlaces (digits - 1 - exponent) := by
  rw [roundDouble, if_neg (by simpa [isZero] using hrank), hexponent]
  rfl

/-- Beyond the limit rounding overflows. -/
theorem roundDouble_overflow {x : Double} (hdigits : 1 ≤ digits) (h : x.RoundsBeyond digits) :
    roundDouble x digits = .error .overflow := by
  obtain ⟨negative, rank, rfl, -⟩ := id h
  have hrank : rank.val ≠ 0 := by
    intro hzero
    refine not_roundsBeyond_of_lt ?_ hdigits h
    rw [hzero, unitsOfRank_zero]
    exact Nat.mul_pos (by decide) (Nat.mul_pos (twoTo_pos _) (twoTo_pos _))
  obtain ⟨exponent, hexponent, -⟩ := exists_decimalExponent_eq negative hrank
  have hbelow := (decimalExponent_bounds hexponent).2
  have hlimit := (roundsBeyond_iff hdigits hexponent).1 h
  have hplaces : digits - 1 - exponent < -292 := by
    by_contra hge
    exact absurd hlimit (not_le.2 (roundedAt_lt_limit_of_le rank (by omega)))
  rw [roundDouble_eq hrank hexponent, roundPlaces_overflow negative (by omega) (by omega) hlimit]

/-- Otherwise it gives the number itself, or the double nearest to a whole number of steps. -/
theorem exists_roundDouble_eq (hdigits : 1 ≤ digits)
    (h : ¬(finite negative rank).RoundsBeyond digits) : ∃ rounded : Fin rankCount,
      roundDouble (finite negative rank) digits = .ok (finite negative rounded) ∧
        (rounded = rank ∨ ∃ exponent, (finite negative rank).decimalExponent = .ok exponent ∧
          roundedAt rank (digits - 1 - exponent) < limit ∧
            Cell rounded (roundedAt rank (digits - 1 - exponent) * one)) := by
  by_cases hzero : rank.val = 0
  · refine ⟨rank, ?_, Or.inl rfl⟩
    rw [roundDouble, if_pos (by simp [isZero, hzero])]
  · obtain ⟨exponent, hexponent, -⟩ := exists_decimalExponent_eq negative hzero
    have hbelow := (decimalExponent_bounds hexponent).2
    rw [roundDouble_eq hzero hexponent]
    rcases lt_or_ge 323 (digits - 1 - exponent) with hmany | hfew
    · refine ⟨rank, ?_, Or.inl rfl⟩
      rw [roundPlaces, if_pos hmany]
    · rw [roundsBeyond_iff hdigits hexponent, not_le] at h
      obtain ⟨rounded, hrounded, hcell⟩ :=
        exists_roundPlaces_eq negative (by omega) hfew h
      exact ⟨rounded, hrounded, Or.inr ⟨exponent, hexponent, h, hcell⟩⟩

/-! ### Rounding once more -/

/-- The largest doubles are this close to what rounds to them. -/
theorem abs_value_sub_le {rounded : Fin rankCount} {value : ℚ} (h : Cell rounded (value * one)) :
    |(unitsOfRank rounded / one : ℚ) - value| ≤ twoTo 972 := by
  have hone := one_pos'
  have hone' : (1 : ℚ) ≤ one := by exact_mod_cast twoTo_pos 1074
  have hclose := h.abs_sub_le
  have hlargest : (unitsOfRank rounded / one : ℚ) ≤ twoTo 1024 := by
    refine unitsOfRank_div_one_le ?_
    rw [← unitsOfRank_rankCount]
    exact unitsOfRank_strictMono.monotone rounded.isLt.le
  have hspacing : (1 : ℚ) + twoTo 1024 / twoTo 52 ≤ 2 * twoTo 972 := by
    rw [show 1024 = 972 + 52 from rfl, twoTo_add, Nat.cast_mul,
      mul_div_cancel_right₀ _ (Nat.cast_ne_zero.2 (twoTo_pos 52).ne')]
    have hpos : (1 : ℚ) ≤ twoTo 972 := by exact_mod_cast twoTo_pos 972
    linarith
  have hvalue : (unitsOfRank rounded / one : ℚ) - value =
      (unitsOfRank rounded - value * one) / one := by
    rw [sub_div, mul_div_cancel_right₀ _ hone.ne']
  rw [hvalue, abs_div, abs_of_pos hone]
  calc |(unitsOfRank rounded - value * one : ℚ)| / one
      ≤ (1 + unitsOfRank rounded / twoTo 52) / 2 / one := div_le_div_of_nonneg_right hclose hone.le
    _ = (1 / one + unitsOfRank rounded / one / twoTo 52) / 2 := by
        rw [div_right_comm, add_div, div_right_comm (unitsOfRank rounded : ℚ)]
    _ ≤ (1 + twoTo 1024 / twoTo 52) / 2 := by
        have hfirst := (div_le_one hone).2 hone'
        have hsecond := div_le_div_of_nonneg_right hlargest (Nat.cast_nonneg (α := ℚ) (twoTo 52))
        linarith
    _ ≤ twoTo 972 := by linarith

/-- A number that is near a whole number of steps is rounded to this number of steps. -/
theorem roundedAt_eq_of_near {r : Nat} {steps : Nat} {places : Int}
    (h : |(unitsOfRank r / one : ℚ) - steps * 10 ^ (-places)| < 10 ^ (-places) / 2) :
    roundedAt r places = steps * 10 ^ (-places) := by
  have hstep : (0 : ℚ) < 10 ^ (-places) := zpow_pos (by norm_num) _
  have hgap : |roundedAt r places - steps * 10 ^ (-places)| < 10 ^ (-places) := by
    have htriangle := abs_sub_le (roundedAt r places) (unitsOfRank r / one) (steps * 10 ^ (-places))
    linarith [abs_roundedAt_sub_le r places]
  rw [roundedAt, ← sub_mul, abs_mul, abs_of_pos hstep, mul_lt_iff_lt_one_left hstep] at hgap
  have hsteps : |(stepsAtPlaces r places : Int) - steps| < 1 := by exact_mod_cast hgap
  rw [Int.abs_lt_one_iff, sub_eq_zero, Nat.cast_inj] at hsteps
  rw [roundedAt, hsteps]

/-- Steps that are not the largest ones do not lead from a number far from the limit beyond it. -/
theorem roundedAt_lt_limit_of_near {r : Nat} (hdigits : 1 ≤ digits)
    (h : (unitsOfRank r / one : ℚ) ≤ (23 * twoTo 1019 : ℕ) + tenTo 307 / 2 + twoTo 972) :
    roundedAt r (digits - 309) < limit := by
  have hnat := steps_below_limit.2.1
  have hsum : ((23 * twoTo 1019 + tenTo 307 + twoTo 972 : ℕ) : ℚ) < limit := Nat.cast_lt.2 hnat.1
  have hhalf :
      ((2 * (23 * twoTo 1019) + tenTo 307 + 2 * twoTo 972 : ℕ) : ℚ) < (3 * tenTo 308 : ℕ) :=
    Nat.cast_lt.2 hnat.2
  have hpower : (tenTo 308 : ℚ) < limit := by
    rw [tenTo_eq, ← zpow_natCast]
    exact ten_zpow_lt_limit le_rfl
  have hrounded := roundedAt_le r (digits - 309)
  have hpos : (0 : ℚ) < tenTo 308 := Nat.cast_pos.2 (tenTo_pos 308)
  rw [Nat.cast_add, Nat.cast_add] at hsum
  rw [Nat.cast_add, Nat.cast_add, Nat.cast_mul 2, Nat.cast_mul 2, Nat.cast_mul 3, Nat.cast_ofNat,
    Nat.cast_ofNat] at hhalf
  rcases hdigits.eq_or_lt with rfl | hmore
  · -- one step is below the limit, and two are more than half a step away
    have hstep : (10 : ℚ) ^ (-((1 : Int) - 309)) = tenTo 308 := by
      rw [tenTo_eq, ← zpow_natCast]
      rfl
    rw [roundedAt, hstep] at hrounded ⊢
    generalize stepsAtPlaces r (1 - 309) = steps at *
    generalize ((23 * twoTo 1019 : ℕ) : ℚ) = units, (tenTo 307 : ℚ) = small,
      (tenTo 308 : ℚ) = large, (twoTo 972 : ℚ) = spacing at *
    have hfew : steps ≤ 1 := by
      by_contra hmany
      have htwo : (2 : ℚ) ≤ steps := by exact_mod_cast (by omega : 2 ≤ steps)
      have hproduct := mul_le_mul_of_nonneg_right htwo hpos.le
      linarith
    have hfew' : (steps : ℚ) ≤ 1 := by exact_mod_cast hfew
    exact (mul_le_of_le_one_left hpos.le hfew').trans_lt hpower
  · have hstep := ten_zpow_neg_le (n := 307) (show -(307 : ℕ) ≤ digits - 309 by omega)
    linarith

/-- **A rounded number is not carried beyond the largest double by being rounded once more.** -/
theorem not_roundsBeyond_of_roundDouble {rounded : Fin rankCount} (hdigits : 1 ≤ digits)
    (h : ¬(finite negative rank).RoundsBeyond digits)
    (hrounded : roundDouble (finite negative rank) digits = .ok (finite negative rounded)) :
    ¬(finite negative rounded).RoundsBeyond digits := by
  obtain ⟨r, hr, heq | ⟨exponent, hexponent, hlimit, hcell⟩⟩ := exists_roundDouble_eq hdigits h
  all_goals obtain rfl : r = rounded := (finite.inj (Except.ok.inj (hr.symm.trans hrounded))).2
  · exact heq ▸ h
  · rw [roundsBeyond_finite, not_le]
    have hclose := abs_value_sub_le hcell
    rcases (decimalExponent_bounds hexponent).2.eq_or_lt with rfl | hlower
    · -- the same steps once more
      rw [Int.sub_sub, show (1 : Int) + 308 = 309 from rfl] at hclose hlimit
      rcases Int.lt_or_le 16 digits with hmany | hfew
      · exact roundedAt_lt_limit_of_le r (by omega)
      · have hspacing : ((2 * twoTo 972 : ℕ) : ℚ) < tenTo 293 :=
          Nat.cast_lt.2 steps_below_limit.2.2
        have hstep : (tenTo 293 : ℚ) ≤ 10 ^ (-(digits - 309)) := by
          rw [tenTo_eq, ← zpow_natCast]
          exact zpow_le_zpow_right₀ (by norm_num) (by push_cast; omega)
        rw [Nat.cast_mul, Nat.cast_ofNat] at hspacing
        have hnear : |(unitsOfRank r / one : ℚ) - roundedAt rank (digits - 309)| <
            10 ^ (-(digits - 309)) / 2 := by linarith
        exact (roundedAt_eq_of_near hnear).trans_lt hlimit
    · have hsmall : unitsOfRank rank < 23 * (twoTo 1019 * one) := by
        by_contra hge
        have htop := hexponent.symm.trans (decimalExponent_highest negative (by omega))
        exact hlower.ne (Except.ok.inj htop)
      have hunits : (unitsOfRank rank / one : ℚ) ≤ (23 * twoTo 1019 : ℕ) :=
        unitsOfRank_div_one_le (by rw [Nat.mul_assoc]; exact hsmall.le)
      have hfirst := roundedAt_le rank (digits - 1 - exponent)
      have hstep := ten_zpow_neg_le (n := 307) (show -(307 : ℕ) ≤ digits - 1 - exponent by omega)
      exact roundedAt_lt_limit_of_near hdigits (by linarith [(abs_le.1 hclose).2])

/-- A number that is at least one is not rounded to one of the two least magnitudes. -/
theorem rank_of_roundDouble {rounded : Fin rankCount} (hdigits : 1 ≤ digits)
    (h : ¬(finite negative rank).RoundsBeyond digits) (hunits : one ≤ unitsOfRank rank)
    (hrounded : roundDouble (finite negative rank) digits = .ok (finite negative rounded)) :
    rounded.val = 0 ∨ 2 < rounded.val := by
  have hpos := one_pos'
  have hlarge : (40 : ℚ) ≤ one := by
    exact_mod_cast (show 40 ≤ 64 by decide).trans (twoTo_le (show 6 ≤ 1074 by decide))
  by_contra hlow
  have htwo : unitsOfRank rounded ≤ 2 ∧ unitsOfRank (rounded + 1) ≤ 3 ∧ 0 < unitsOfRank rounded :=
    ⟨unitsOfRank_strictMono.monotone (show rounded.val ≤ 2 by omega),
      unitsOfRank_strictMono.monotone (show rounded.val + 1 ≤ 3 by omega),
      unitsOfRank_pos (by omega)⟩
  obtain ⟨r, hr, heq | ⟨exponent, hexponent, hlimit, hcell⟩⟩ := exists_roundDouble_eq hdigits h
  all_goals obtain rfl : r = rounded := (finite.inj (Except.ok.inj (hr.symm.trans hrounded))).2
  · rw [← heq] at hunits
    have hfew : (one : ℚ) ≤ 2 := by exact_mod_cast hunits.trans htwo.1
    linarith
  · -- what is rounded is neither zero nor as small as that
    have hvalue : (1 : ℚ) ≤ unitsOfRank rank / one := by
      rw [le_div_iff₀ hpos, one_mul]
      exact Nat.cast_le.2 hunits
    have hfirst : (unitsOfRank r : ℚ) ≤ 2 := by exact_mod_cast htwo.1
    have hsecond : (unitsOfRank (r + 1) : ℚ) ≤ 3 := by exact_mod_cast htwo.2.1
    have hthird : (0 : ℚ) < unitsOfRank r := by exact_mod_cast htwo.2.2
    have hnonneg : (0 : ℚ) ≤ unitsOfRank (r.val - 1) := Nat.cast_nonneg _
    have hhigh := hcell.high
    have hlower := hcell.low
    have hhalf := (abs_le.1 (abs_roundedAt_sub_le rank (digits - 1 - exponent))).1
    generalize digits - 1 - exponent = places at *
    have hreached : (1 / 2 : ℚ) ≤ roundedAt rank places := by
      rcases le_or_gt places 0 with hwhole | hfraction
      · have hstep : (1 : ℚ) ≤ 10 ^ (-places) := one_le_zpow₀ (by norm_num) (by omega)
        have hsteps : (1 : ℚ) ≤ stepsAtPlaces rank places := by
          have hne : stepsAtPlaces rank places ≠ 0 := by
            intro hnone
            rw [roundedAt, hnone, Nat.cast_zero, zero_mul, zero_mul] at hlower
            linarith
          exact_mod_cast Nat.one_le_iff_ne_zero.2 hne
        rw [roundedAt]
        linarith [one_le_mul_of_one_le_of_one_le hsteps hstep]
      · have hstep : (10 : ℚ) ^ (-places) ≤ 1 := zpow_le_one_of_nonpos₀ (by norm_num) (by omega)
        linarith
    have hproduct := mul_le_mul_of_nonneg_right hreached hpos.le
    linarith

end RoundDouble

end Rendering

end Metrology
