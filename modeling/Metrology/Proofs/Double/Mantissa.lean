import Metrology.Proofs.Double.Exponent

/-!
# Mantissas

A number is scaled by dividing it by a power of ten. The powers in use are near the true ones
(`abs_tenPow_sub_le`), and so the quotient is near what it stands for (`abs_quotient_sub_le`). Where
the number is not below the power, it is not below the power in use either (`tenPow_le_of_le`), and
the quotient is not below one.
-/

namespace Metrology.Double

variable {x q : Double} {k : Int}

/-! ### Powers of ten in use -/

theorem roundsTo_tenPow (hhigh : k ≤ 308) (hraised : k ∉ raisedPowers) :
    (tenPow k).RoundsTo (10 ^ k) := by
  rw [tenPow_of_notMem hraised]
  exact roundsTo_ofDecimal_one hhigh

theorem abs_tenPow_sub_le (hlow : -307 ≤ k) (hhigh : k ≤ 308) :
    |(tenPow k).toRat - 10 ^ k| ≤ 3 / 10 ^ 16 * 10 ^ k := by
  by_cases hraised : k ∈ raisedPowers
  · exact (tenPow_exceptions.1 k hraised).2.2.1
  · have hpos := ten_zpow_pos k
    have hclose := (roundsTo_tenPow hhigh hraised).abs_sub_le_of_ge hlow le_rfl
    norm_num at hclose ⊢
    linarith

/-- The least powers have few bits. -/
theorem abs_tenPow_sub_le_of_lt (hlow : -323 ≤ k) (hlt : k < -307) :
    |(tenPow k).toRat - 10 ^ k| ≤ 10 ^ k / 80 := by
  have hall : ∀ i : Fin 16, |(tenPow (i.val - 323)).toRat - 10 ^ ((i.val : Int) - 323)| ≤
      10 ^ ((i.val : Int) - 323) / 80 := by
    decide +kernel
  have hk := hall ⟨(k + 323).toNat, by omega⟩
  rwa [Int.toNat_of_nonneg (by omega), add_sub_cancel_right] at hk

/-- A number that is not below a power of ten is not below the power in use. -/
theorem tenPow_le_of_le (hx : x.isFinite = true) (hhigh : k ≤ 308) (h : 10 ^ k ≤ |x.toRat|) :
    (tenPow k).toRat ≤ |x.toRat| := by
  have habs : x.abs.isFinite = true := by rwa [isFinite_abs]
  rw [← toRat_abs] at h ⊢
  by_cases hraised : k ∈ raisedPowers
  · obtain ⟨-, -, -, -, hbelow, hnext⟩ := tenPow_exceptions.1 k hraised
    exact hnext ▸ le_toRat_of_lt habs (hbelow.trans_le h)
  · exact (roundsTo_tenPow hhigh hraised).le_of_le habs h

theorem toRat_tenPow_pos (hlow : -323 ≤ k) (hhigh : k ≤ 308) : 0 < (tenPow k).toRat := by
  linarith [(le_two_mul_tenPow hlow hhigh).2, ten_zpow_pos k]

/-! ### Quotients -/

theorem isNegative_of_toRat_pos (h : 0 < x.toRat) : x.isNegative = false := by
  cases x with
  | nan => rfl
  | infinite => exact absurd h (by simp [toRat])
  | finite negative rank =>
    cases negative with
    | false => rfl
    | true =>
      rw [toRat_finite, sign, if_pos rfl, neg_one_mul] at h
      linarith [unitsOfRank_div_one_nonneg rank]

theorem isNegative_ofRank {negative : Bool} {rank : Nat} :
    (ofRank negative rank).isNegative = negative := by
  rw [ofRank]
  split <;> rfl

theorem isNegative_div {y : Double} (hx : x.isFinite = true) (hy : y.isFinite = true)
    (hzero : y.isZero = false) : (x / y).isNegative = (x.isNegative != y.isNegative) := by
  cases x with
  | nan | infinite => exact absurd hx (by simp)
  | finite s p =>
    cases y with
    | nan | infinite => exact absurd hy (by simp)
    | finite t r =>
      rw [div_finite s t p (beq_eq_false_iff_ne.1 hzero), nearest, isNegative_ofRank]
      rfl

/-- A number that is scaled to less than a thousand, before the quotient is a double. -/
theorem roundsTo_scaleDown (hx : x.isFinite = true) (hlow : -323 ≤ k) (hhigh : k ≤ 308)
    (hlt : |x.toRat| < 10 ^ (k + 3)) (h : Rendering.scaleDown x k = .ok q) :
    q.isNegative = x.isNegative ∧ q.abs.RoundsTo (|x.toRat| / (tenPow k).toRat) := by
  obtain ⟨hfinite, hhalf⟩ := le_two_mul_tenPow hlow hhigh
  have hpos := toRat_tenPow_pos hlow hhigh
  have hzero := isZero_tenPow hlow hhigh
  have hsmall : |x.toRat / (tenPow k).toRat| ≤ 2 ^ 11 := by
    rw [zpow_add₀ (by norm_num)] at hlt
    rw [abs_div, abs_of_pos hpos, div_le_iff₀ hpos]
    norm_num at hlt ⊢
    linarith
  rw [Rendering.scaleDown, if_neg (by simp [hzero])] at h
  obtain rfl := Except.ok.inj h
  have hrounds := roundsTo_div hx hfinite hzero (lt_twoTo_of_le (hsmall.trans (by norm_num)))
  refine ⟨?_, ?_⟩
  · rw [isNegative_div hx hfinite hzero, isNegative_of_toRat_pos hpos,
      Bool.bne_false]
  · have habs := hrounds.abs
    rwa [abs_div, abs_of_pos hpos] at habs

/-- **A quotient is near what it stands for.** -/
theorem abs_quotient_sub_le {v : ℚ} (hlow : -307 ≤ k) (hhigh : k ≤ 308) (hv : 10 ^ k / 2 ≤ v)
    (h : q.RoundsTo (v / (tenPow k).toRat)) :
    |q.toRat - v / 10 ^ k| ≤ 8 / 10 ^ 16 * (v / 10 ^ k) := by
  have hpow := ten_zpow_pos k
  have hpower := toRat_tenPow_pos (by omega) hhigh
  have hnear := abs_tenPow_sub_le hlow hhigh
  -- the quotients by the power in use and by the true one
  have hquotients : |v / (tenPow k).toRat - v / 10 ^ k| ≤ 4 / 10 ^ 16 * (v / 10 ^ k) := by
    have hdiff : v / (tenPow k).toRat - v / 10 ^ k =
        v / 10 ^ k * ((10 ^ k - (tenPow k).toRat) / (tenPow k).toRat) := by
      field_simp
    have hpart : |10 ^ k - (tenPow k).toRat| / (tenPow k).toRat ≤ 4 / 10 ^ 16 := by
      rw [div_le_iff₀ hpower, abs_sub_comm]
      have hlower := (abs_le.1 hnear).1
      norm_num at hnear hlower ⊢
      linarith
    rw [hdiff, abs_mul, abs_of_pos (div_pos (by linarith) hpow), abs_div, abs_of_pos hpower,
      mul_comm]
    exact mul_le_mul_of_nonneg_right hpart (div_pos (by linarith) hpow).le
  have hhalf : 1 / 2 ≤ v / 10 ^ k := by
    rw [le_div_iff₀ hpow]
    linarith
  obtain ⟨hlower, hupper⟩ := abs_le.1 hquotients
  have hclose := h.abs_sub_le_of_ge (K := -1) (by decide) (by
    norm_num at hlower hhalf ⊢
    linarith)
  have htriangle := abs_sub_le q.toRat (v / (tenPow k).toRat) (v / 10 ^ k)
  norm_num at *
  linarith

end Metrology.Double
