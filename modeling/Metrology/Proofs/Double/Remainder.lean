import Metrology.Proofs.Double.Order

/-!
# Remainders of doubles

The remainder by a positive modulus is rounded, and rounded again where the modulus is added to a
negative one. So it need not be less than the modulus, but it is never more (`floorMod_bounds`):
whatever is rounded is not above a double.
-/

namespace Metrology.Double

variable {x y m : Double}

/-- A finite double is far enough from the limit for what is less than half of the last gap. -/
theorem abs_toRat_add_lt_limit (hx : x.isFinite = true) {v : ℚ} (hv : v < twoTo 970) :
    |x.toRat| + v < limit := by
  cases x with
  | nan | infinite => exact absurd hx (by simp)
  | finite negative rank =>
    have hunits : unitsOfRank rank ≤ (twoTo 1024 - twoTo 971) * one :=
      range_ends.1.2.1 ▸ unitsOfRank_strictMono.monotone (Nat.le_sub_one_of_lt rank.isLt)
    have hlargest : |(finite negative rank).toRat| ≤ (twoTo 1024 - twoTo 971 : ℕ) := by
      rw [abs_toRat_finite, div_le_iff₀ one_pos']
      exact_mod_cast hunits
    have hgap : ((twoTo 1024 - twoTo 971 : ℕ) : ℚ) + twoTo 970 = limit := by
      have hstep : twoTo 971 = twoTo 970 * 2 := twoTo_succ 970
      have htop : twoTo 971 ≤ twoTo 1024 := twoTo_le (by decide)
      rw [limit, ← Nat.cast_add, Nat.cast_inj]
      omega
    linarith

theorem toRat_signedZero (negative : Bool) : (signedZero negative).toRat = 0 := by
  have hzero : ((unitsOfRank 0 : ℕ) : ℚ) = 0 := by rw [unitsOfRank_zero, Nat.cast_zero]
  rw [signedZero, toRat_finite, hzero, zero_div, mul_zero]

/-- A remainder with a sign, and with the modulus added if that is negative. -/
theorem shifted_bounds {s : Bool} {rest : ℚ} (hx : x.RoundsTo (sign s * rest)) (hnonneg : 0 ≤ rest)
    (hm : m.isFinite = true) (hle : rest ≤ m.toRat) :
    (if s = false then x else x + m).isFinite = true ∧
      0 ≤ (if s = false then x else x + m).toRat ∧
      (if s = false then x else x + m).toRat ≤ m.toRat := by
  cases s with
  | false =>
    rw [sign, if_neg (by simp), one_mul] at hx
    rw [if_pos rfl]
    exact ⟨hx.isFinite, hx.nonneg hnonneg, hx.le_of_le hm hle⟩
  | true =>
    rw [sign, if_pos rfl, neg_one_mul] at hx
    rw [if_neg (by simp)]
    have hlow : m.negate.toRat ≤ x.toRat := by
      refine hx.ge_of_ge ((isFinite_negate m).trans hm) ?_
      rw [toRat_negate]
      linarith
    rw [toRat_negate] at hlow
    have hhigh := hx.nonpos (by linarith)
    have hlimit := (roundsTo_toRat hm).lt_limit (hnonneg.trans hle)
    have hsum := roundsTo_add_of_lt_limit hx.isFinite hm (abs_lt.2 ⟨by linarith, by linarith⟩)
    exact ⟨hsum.isFinite, hsum.nonneg (by linarith), hsum.le_of_le hm (by linarith)⟩

/-- A remainder by a positive modulus is between zero and the modulus, both included. -/
theorem floorMod_bounds (hx : x.isFinite = true) (hm : m.isFinite = true) (hpos : 0 < m.toRat) :
    (x.floorMod m).isFinite = true ∧ 0 ≤ (x.floorMod m).toRat ∧
      (x.floorMod m).toRat ≤ m.toRat := by
  cases x with
  | nan | infinite => exact absurd hx (by simp)
  | finite s p =>
    cases m with
    | nan | infinite => exact absurd hm (by simp)
    | finite t q =>
      have hone := one_pos'
      obtain rfl : t = false := by
        by_contra ht
        rw [Bool.not_eq_false] at ht
        rw [ht, toRat_finite, sign, if_pos rfl] at hpos
        linarith [unitsOfRank_div_one_nonneg q]
      have hmodulus : (finite false q).toRat = unitsOfRank q / one := by
        rw [toRat_finite, sign, if_neg (by simp), one_mul]
      have hunits : 0 < unitsOfRank q := by
        rwa [hmodulus, div_pos_iff_of_pos_right hone, Nat.cast_pos] at hpos
      -- the remainder of the magnitudes is less than the modulus
      generalize hrest : unitsOfRank p % unitsOfRank q = rest
      have hlt : rest < unitsOfRank q := hrest ▸ Nat.mod_lt _ hunits
      have hle : (rest : ℚ) / (1 : ℕ) / one ≤ (finite false q).toRat := by
        rw [hmodulus, Nat.cast_one, div_one, div_le_div_iff_of_pos_right hone, Nat.cast_le]
        exact hlt.le
      have hnonneg : (0 : ℚ) ≤ rest / (1 : ℕ) / one :=
        div_nonneg (div_nonneg (Nat.cast_nonneg _) (Nat.cast_nonneg _)) hone.le
      have hlimit := (roundsTo_toRat hm).lt_limit hpos.le
      have hrounds := roundsTo_nearest_of_lt_limit s Nat.one_pos (hle.trans_lt hlimit)
      have heq : (finite s p).floorMod (finite false q) =
          if (nearest s rest 1).isZero then signedZero false
          else if s = false then nearest s rest 1 else nearest s rest 1 + finite false q := by
        rw [← hrest]
        rfl
      rw [heq]
      split
      · rw [toRat_signedZero]
        exact ⟨rfl, le_rfl, hpos.le⟩
      · exact shifted_bounds hrounds hnonneg hm hle

end Metrology.Double
