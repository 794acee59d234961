import Metrology.Proofs.Double.Logarithm
import Metrology.Rendering.Number

/-!
# Scaling by the decimal exponent

A double over the power of ten of its decimal exponent is finite (`isFinite_scaleDown`), and so is
all that is made of it on the way to a mantissa.

The exponent is about the count of binades times `log₁₀ 2`, and a power of ten is at least half of
what it stands for (`le_two_mul_tenPow`), so the quotient is bounded by a power of two
(`abs_div_tenPow_lt`). The one power of ten that can be asked for and is zero is the one of the two
least magnitudes, and dividing by it fails.
-/

namespace Metrology.Double

/-! ### Powers of ten -/

theorem tenPow_of_notMem {exponent : Int} (h : exponent ∉ raisedPowers) :
    tenPow exponent = ofDecimal false 1 exponent := by
  rw [tenPow]
  split
  · next heq => rw [heq, if_neg h]
  · rfl

/-- What is found by evaluation. The powers of ten that are not the nearest doubles are near the
true ones, next to the nearest; one tenth, one, ten and a hundred are not below theirs; the power
below the least magnitude is zero, and ten is ten. -/
theorem tenPow_exceptions :
    (∀ k ∈ raisedPowers, -307 ≤ k ∧ (tenPow k).isFinite = true ∧
      |(tenPow k).toRat - 10 ^ k| ≤ 3 / 10 ^ 16 * 10 ^ k ∧
      (1 - 1 / 10 ^ 15) * (tenPow k).toRat ≤ (ofDecimal false 1 k).toRat ∧
      (unitsOfRank (nearestRank (tenTo k.toNat * one) 1) / one : ℚ) < 10 ^ k ∧
      (tenPow k).toRat = unitsOfRank (nearestRank (tenTo k.toNat * one) 1 + 1) / one) ∧
    (∀ k ∈ [-1, 0, 1, 2], (10 : ℚ) ^ k ≤ (ofDecimal false 1 k).toRat) ∧
    (tenPow (-324)).isZero = true ∧
    (10 : Double).isFinite = true ∧ (10 : Double).isZero = false ∧ (10 : Double).toRat = 10 := by
  decide +kernel

theorem ten_zpow_lt_limit {exponent : Int} (h : exponent ≤ 308) : (10 : ℚ) ^ exponent < limit :=
  calc (10 : ℚ) ^ exponent ≤ 10 ^ ((308 : ℕ) : ℤ) := zpow_le_zpow_right₀ (by norm_num) h
    _ = tenTo 308 := by rw [zpow_natCast, tenTo_eq]
    _ < limit := Nat.cast_lt.2 range_ends.2.1.1

/-- The powers of ten that are not too low are more than two units large. -/
theorem two_lt_ten_zpow_mul_one {exponent : Int} (h : -323 ≤ exponent) :
    (202 / 100 : ℚ) ≤ 10 ^ exponent * one := by
  have hpow : (1 : ℚ) ≤ 10 ^ (exponent + 323) := one_le_zpow₀ (by norm_num) (by omega)
  linarith [(ten_zpow_mul_one_bounds exponent).1]

/-- A power of ten is at least half of what it stands for. -/
theorem le_two_mul_tenPow {exponent : Int} (hlow : -323 ≤ exponent) (hhigh : exponent ≤ 308) :
    (tenPow exponent).isFinite = true ∧ (10 : ℚ) ^ exponent ≤ 2 * (tenPow exponent).toRat := by
  by_cases hraised : exponent ∈ raisedPowers
  · obtain ⟨-, hfinite, hnear, -⟩ := tenPow_exceptions.1 exponent hraised
    have hpos : (0 : ℚ) < 10 ^ exponent := zpow_pos (by norm_num) _
    refine ⟨hfinite, ?_⟩
    linarith [(abs_le.1 hnear).1]
  · have hone := one_pos'
    have hunits := two_lt_ten_zpow_mul_one hlow
    obtain ⟨rank, heq, hcell⟩ := exists_ofDecimal_eq false
      (show (1 : ℕ) * (10 : ℚ) ^ exponent < limit by
        rw [Nat.cast_one, one_mul]
        exact ten_zpow_lt_limit hhigh)
    rw [Nat.cast_one, one_mul] at hcell
    have hclose := (abs_le.1 (hcell.abs_sub_le_units (by linarith))).1
    rw [tenPow_of_notMem hraised, heq]
    refine ⟨rfl, ?_⟩
    rw [toRat_finite, sign, if_neg (by simp), one_mul, ← mul_div_assoc, le_div_iff₀ hone]
    generalize (10 : ℚ) ^ exponent * one = units at *
    have hpart : units / 2 ^ 52 ≤ units / 1000 :=
      div_le_div_of_nonneg_left (by linarith) (by norm_num) (by norm_num)
    linarith

theorem isZero_tenPow {exponent : Int} (hlow : -323 ≤ exponent) (hhigh : exponent ≤ 308) :
    (tenPow exponent).isZero = false := by
  obtain ⟨-, hle⟩ := le_two_mul_tenPow hlow hhigh
  have hpos : (0 : ℚ) < 10 ^ exponent := zpow_pos (by norm_num) _
  rw [← Bool.not_eq_true]
  intro hzero
  have hnone : (tenPow exponent).toRat = 0 := by
    generalize tenPow exponent = power at hzero
    cases power with
    | nan | infinite => exact absurd hzero (by simp [isZero])
    | finite negative rank =>
      have hrank : rank.val = 0 := by simpa [isZero] using hzero
      rw [toRat_finite, hrank, unitsOfRank_zero, Nat.cast_zero, zero_div, mul_zero]
  linarith

theorem isZero_tenPow_lowest : (tenPow (-324)).isZero = true := tenPow_exceptions.2.2.1

/-! ### Quotients -/

/-- A magnitude is below the power of two after its highest bit. -/
theorem lt_two_zpow_binade (rank : Nat) : (unitsOfRank rank / one : ℚ) < 2 ^ (binade rank + 1) := by
  have hlt : (unitsOfRank rank : ℚ) < twoTo ((unitsOfRank rank).log2 + 1) :=
    Nat.cast_lt.2 (lt_twoTo_log2 _)
  have hexponent : binade rank + 1 + (1074 : ℕ) = (((unitsOfRank rank).log2 + 1 : ℕ) : ℤ) := by
    rw [binade]
    push_cast
    ring
  rwa [div_lt_iff₀ one_pos', one, twoTo_eq, ← zpow_natCast, ← zpow_add₀ two_ne_zero, hexponent,
    zpow_natCast, ← twoTo_eq]

/-- Ten is between two powers of two. -/
theorem two_zpow_le_ten_zpow (k : Int) :
    (0 ≤ k → (2 : ℚ) ^ (3 * k) ≤ 10 ^ k) ∧ (k ≤ 0 → (2 : ℚ) ^ (4 * k) ≤ 10 ^ k) := by
  refine ⟨fun hk ↦ ?_, fun hk ↦ ?_⟩
  · rw [zpow_mul]
    exact zpow_le_zpow_left₀ hk (by norm_num) (by norm_num)
  · obtain ⟨n, hn⟩ := Int.eq_ofNat_of_zero_le (show 0 ≤ -k by omega)
    obtain rfl : k = -n := by omega
    rw [zpow_mul, zpow_neg, zpow_neg, zpow_natCast, zpow_natCast]
    exact inv_anti₀ (by positivity) (pow_le_pow_left₀ (by norm_num) (by norm_num) n)

/-- A number over a power of ten is bounded by a power of two. -/
theorem abs_div_tenPow_lt (negative : Bool) (rank : Fin rankCount) {k n : Int} (hlow : -323 ≤ k)
    (hhigh : k ≤ 308)
    (hn : 0 ≤ k ∧ binade rank + 2 ≤ n + 3 * k ∨ k ≤ 0 ∧ binade rank + 2 ≤ n + 4 * k) :
    |(finite negative rank).toRat / (tenPow k).toRat| < 2 ^ n := by
  have hten : (0 : ℚ) < 10 ^ k := zpow_pos (by norm_num) _
  obtain ⟨-, hle⟩ := le_two_mul_tenPow hlow hhigh
  have hpos : 0 < (tenPow k).toRat := by linarith
  have hexponent : (2 : ℚ) ^ (binade rank + 2) ≤ 2 ^ n * 10 ^ k := by
    obtain ⟨hthree, hfour⟩ := two_zpow_le_ten_zpow k
    rcases hn with ⟨hk, hn⟩ | ⟨hk, hn⟩
    · calc (2 : ℚ) ^ (binade rank + 2) ≤ 2 ^ (n + 3 * k) := zpow_le_zpow_right₀ (by norm_num) hn
        _ = 2 ^ n * 2 ^ (3 * k) := zpow_add₀ two_ne_zero _ _
        _ ≤ 2 ^ n * 10 ^ k := mul_le_mul_of_nonneg_left (hthree hk) (zpow_nonneg (by norm_num) _)
    · calc (2 : ℚ) ^ (binade rank + 2) ≤ 2 ^ (n + 4 * k) := zpow_le_zpow_right₀ (by norm_num) hn
        _ = 2 ^ n * 2 ^ (4 * k) := zpow_add₀ two_ne_zero _ _
        _ ≤ 2 ^ n * 10 ^ k := mul_le_mul_of_nonneg_left (hfour hk) (zpow_nonneg (by norm_num) _)
  rw [abs_div, abs_of_pos hpos, div_lt_iff₀ hpos, abs_toRat_finite]
  calc (unitsOfRank rank / one : ℚ) < 2 ^ (binade rank + 1) := lt_two_zpow_binade rank
    _ = 2 ^ (binade rank + 2) / 2 := by
        rw [show binade rank + 2 = binade rank + 1 + 1 by ring, zpow_add_one₀ two_ne_zero (_ + 1),
          mul_div_cancel_right₀ _ two_ne_zero]
    _ ≤ 2 ^ n * (tenPow k).toRat := by
        have hproduct := mul_le_mul_of_nonneg_left hle (zpow_nonneg (zero_le_two (α := ℚ)) n)
        linarith

theorem two_zpow_le_twoTo {n : Int} (hn : n ≤ 1023) : (2 : ℚ) ^ n ≤ twoTo 1023 := by
  rw [twoTo_eq, ← zpow_natCast]
  exact zpow_le_zpow_right₀ (by norm_num) hn

/-! ### The mantissa -/

/-- **A number over the power of ten of its decimal exponent is finite.** -/
theorem isFinite_scaleDown {x quotient : Double} {exponent : Int}
    (hx : x.isFiniteNonzero = true) (hexponent : x.decimalExponent = .ok exponent)
    (h : Rendering.scaleDown x exponent = .ok quotient) : quotient.isFinite = true := by
  obtain ⟨hlow, hhigh⟩ := decimalExponent_bounds hexponent
  rw [Rendering.scaleDown] at h
  split at h
  · exact absurd h (by simp)
  · next hzero =>
    obtain rfl := Except.ok.inj h
    cases x with
    | nan | infinite => exact absurd hx (by simp [isFiniteNonzero])
    | finite negative rank =>
      have hrank : rank.val ≠ 0 := by simpa [isFiniteNonzero, isZero] using hx
      obtain ⟨e, he, hbelow, -⟩ := exists_decimalExponent_eq negative hrank
      obtain rfl : e = exponent := Except.ok.inj (he.symm.trans hexponent)
      have hne : e ≠ -324 := by
        rintro rfl
        exact hzero isZero_tenPow_lowest
      have hbinade : binade rank ≤ binadeShift rank := by
        rw [binadeShift]
        split <;> omega
      have hshift := (binadeShift_bounds rank).2
      have hquotient := abs_div_tenPow_lt negative rank (k := e) (n := 1023) (by omega) hhigh
        (by omega)
      exact (roundsTo_div rfl (le_two_mul_tenPow (by omega) hhigh).1
        (isZero_tenPow (by omega) hhigh)
        (hquotient.trans_le (two_zpow_le_twoTo le_rfl))).isFinite

theorem isFinite_div_ten (negative : Bool) (rank : Fin rankCount) :
    (finite negative rank / (10 : Double)).isFinite = true := by
  obtain ⟨-, -, -, hfinite, hzero, hvalue⟩ := tenPow_exceptions
  -- the number ten is not to be evaluated from here on
  generalize (10 : Double) = ten at *
  refine (roundsTo_div rfl hfinite hzero ?_).isFinite
  have hmagnitude := lt_two_zpow_binade rank
  have hbinade : (2 : ℚ) ^ (binade rank + 1) ≤ 2 * 2 ^ (1023 : Int) := by
    rw [mul_comm, ← zpow_add_one₀ two_ne_zero]
    exact zpow_le_zpow_right₀ (by norm_num) (by linarith [(binade_bounds rank).2])
  have hpower := two_zpow_le_twoTo le_rfl
  have hpos : (0 : ℚ) < 2 ^ (1023 : Int) := zpow_pos (by norm_num) _
  rw [hvalue, abs_div, abs_toRat_finite, abs_of_pos (by norm_num), div_lt_iff₀ (by norm_num)]
  generalize (2 : ℚ) ^ (1023 : Int) = power at *
  linarith

/-- A mantissa that carries remains finite. -/
theorem isFinite_carry {mantissa : Double} (h : mantissa.isFinite = true) (exponent : Int) :
    (Rendering.carry mantissa exponent).1.isFinite = true := by
  rw [Rendering.carry]
  split
  · cases mantissa with
    | nan | infinite => exact absurd h (by simp)
    | finite negative rank => exact isFinite_div_ten negative rank
  · exact h

/-- Rounding to places gives a finite number or fails. -/
theorem isFinite_roundPlaces {x rounded : Double} {places : Int} (hx : x.isFinite = true)
    (h : x.roundPlaces places = .ok rounded) : rounded.isFinite = true := by
  cases x with
  | nan | infinite => exact absurd hx (by simp)
  | finite negative rank =>
    rw [roundPlaces] at h
    split at h
    · exact Except.ok.inj h ▸ rfl
    · split at h
      · exact Except.ok.inj h ▸ rfl
      · split at h
        · exact absurd h (by simp)
        · next hfinite =>
          obtain rfl := Except.ok.inj h
          rcases lt_or_ge (stepsAtPlaces rank places * 10 ^ (-places) : ℚ) limit with hlt | hge
          · obtain ⟨r, heq, -⟩ := exists_ofDecimal_eq negative hlt
            rw [heq]
            rfl
          · exact absurd (ofDecimal_eq_infinite negative hge) (hfinite negative)

end Metrology.Double
