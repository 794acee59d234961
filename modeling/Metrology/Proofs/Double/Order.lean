import Metrology.Proofs.Double.Arithmetic

/-!
# Rounding and order

`Double.RoundsTo` says which double a number is rounded to by the cells of the magnitudes. Here it
is tied to the order of the numbers.

* Rounding keeps the order (`RoundsTo.mono`) and leaves a double as it is (`roundsTo_toRat`). So a
  number on one side of a double is rounded to that side.
* No finite double is nearer to the number than the one it is rounded to, and of two that are
  equally near it is the one of even rank (`RoundsTo.isNearest`).
* How near it is: a part in `2 ^ 53` of the number, or half a unit where doubles are a unit apart
  (`RoundsTo.abs_sub_le`).

A whole number of a power of two is a double if it has 53 bits (`exists_toRat_eq`), and a double
that is not too small is such a number (`exists_eq_div_twoTo`). So rounding keeps whole numbers of
53 bits on their side (`RoundsTo.natCast_le`, `RoundsTo.le_natCast`), and a whole number that is
changed by it is larger (`RoundsTo.eq_natCast_or_le`).

All this carries over to magnitudes (`RoundsTo.abs`), of which a number between a double and a
number that is rounded to it is rounded to it too (`RoundsTo.of_between`).
-/

namespace Metrology.Double

variable {x y : Double} {v w : ℚ}

/-! ### Signs -/

theorem sign_not (negative : Bool) : sign (!negative) = -sign negative := by
  cases negative <;> simp [sign]

theorem toRat_negate (x : Double) : x.negate.toRat = -x.toRat := by
  cases x with
  | nan | infinite => simp [negate, toRat]
  | finite negative rank => rw [negate, toRat_finite, toRat_finite, sign_not, neg_mul]

theorem isFinite_negate (x : Double) : x.negate.isFinite = x.isFinite := by
  cases x <;> rfl

theorem RoundsTo.negate (h : x.RoundsTo v) : x.negate.RoundsTo (-v) := by
  obtain ⟨negative, rank, rfl, magnitude, hnonneg, rfl, hcell⟩ := h
  exact ⟨!negative, rank, rfl, magnitude, hnonneg, by rw [sign_not, neg_mul], hcell⟩

/-- A number that is not negative is rounded to a magnitude. -/
theorem RoundsTo.exists_rank (h : x.RoundsTo v) (hv : 0 ≤ v) :
    ∃ rank : Fin rankCount, x.toRat = unitsOfRank rank / one ∧ Cell rank (v * one) := by
  obtain ⟨negative, rank, rfl, magnitude, hnonneg, rfl, hcell⟩ := h
  cases negative with
  | false =>
    rw [sign, if_neg (by simp), one_mul, toRat_finite, sign, if_neg (by simp), one_mul]
    exact ⟨rank, rfl, hcell⟩
  | true =>
    -- only zero has the sign of a negative number
    obtain rfl : magnitude = 0 := by
      rw [sign, if_pos rfl, neg_one_mul] at hv
      linarith
    rw [zero_mul] at hcell
    have hrank : rank.val = 0 := hcell.unique (cell_zero le_rfl (by norm_num))
    refine ⟨rank, ?_, by rwa [mul_zero, zero_mul]⟩
    rw [toRat_finite, hrank, unitsOfRank_zero, Nat.cast_zero, zero_div, mul_zero]

theorem unitsOfRank_div_one_nonneg (rank : Nat) : (0 : ℚ) ≤ unitsOfRank rank / one :=
  div_nonneg (Nat.cast_nonneg _) one_pos'.le

theorem unitsOfRank_div_one_mono {i j : Nat} (h : i ≤ j) :
    (unitsOfRank i / one : ℚ) ≤ unitsOfRank j / one :=
  div_le_div_of_nonneg_right (by exact_mod_cast unitsOfRank_strictMono.monotone h) one_pos'.le

/-! ### Order -/

theorem RoundsTo.nonneg (h : x.RoundsTo v) (hv : 0 ≤ v) : 0 ≤ x.toRat := by
  obtain ⟨rank, hrank, -⟩ := h.exists_rank hv
  exact hrank ▸ unitsOfRank_div_one_nonneg rank

theorem RoundsTo.nonpos (h : x.RoundsTo v) (hv : v ≤ 0) : x.toRat ≤ 0 := by
  have hnonneg := h.negate.nonneg (neg_nonneg.2 hv)
  rwa [toRat_negate, neg_nonneg] at hnonneg

theorem RoundsTo.mono_of_nonneg (hx : x.RoundsTo v) (hy : y.RoundsTo w) (hv : 0 ≤ v)
    (hle : v ≤ w) : x.toRat ≤ y.toRat := by
  obtain ⟨i, hi, hcell⟩ := hx.exists_rank hv
  obtain ⟨j, hj, hcell'⟩ := hy.exists_rank (hv.trans hle)
  rw [hi, hj]
  exact unitsOfRank_div_one_mono
    (hcell.le_of_le hcell' (mul_le_mul_of_nonneg_right hle one_pos'.le))

/-- Rounding keeps the order. -/
theorem RoundsTo.mono (hx : x.RoundsTo v) (hy : y.RoundsTo w) (hle : v ≤ w) :
    x.toRat ≤ y.toRat := by
  rcases le_total 0 v with hv | hv
  · exact hx.mono_of_nonneg hy hv hle
  · rcases le_total 0 w with hw | hw
    · exact (hx.nonpos hv).trans (hy.nonneg hw)
    · have hnegate := hy.negate.mono_of_nonneg hx.negate (neg_nonneg.2 hw) (neg_le_neg hle)
      rwa [toRat_negate, toRat_negate, neg_le_neg_iff] at hnegate

/-- A finite double is what it is rounded to. -/
theorem roundsTo_toRat (h : x.isFinite = true) : x.RoundsTo x.toRat := by
  cases x with
  | nan | infinite => exact absurd h (by simp)
  | finite negative rank =>
    refine ⟨negative, rank, rfl, _, unitsOfRank_div_one_nonneg rank, toRat_finite negative rank, ?_⟩
    rw [div_mul_cancel₀ _ one_pos'.ne']
    exact cell_unitsOfRank rank

theorem RoundsTo.le_of_le (hx : x.RoundsTo v) (hy : y.isFinite = true) (hle : v ≤ y.toRat) :
    x.toRat ≤ y.toRat :=
  hx.mono (roundsTo_toRat hy) hle

theorem RoundsTo.ge_of_ge (hx : x.RoundsTo v) (hy : y.isFinite = true) (hle : y.toRat ≤ v) :
    y.toRat ≤ x.toRat :=
  (roundsTo_toRat hy).mono hx hle

theorem RoundsTo.toRat_unique (hx : x.RoundsTo v) (hy : y.RoundsTo v) : x.toRat = y.toRat :=
  le_antisymm (hx.mono hy le_rfl) (hy.mono hx le_rfl)

/-! ### Comparison -/

/-- Comparing doubles compares their values. -/
theorem le_iff_toRat_le (hx : x.isFinite = true) (hy : y.isFinite = true) :
    Double.le x y = true ↔ x.toRat ≤ y.toRat := by
  have hone := one_pos'
  have hmono : ∀ {i j : Nat}, (unitsOfRank i / one : ℚ) ≤ unitsOfRank j / one ↔ i ≤ j := by
    intro i j
    rw [div_le_div_iff_of_pos_right hone, Nat.cast_le, unitsOfRank_strictMono.le_iff_le]
  have hzero : ∀ {i : Nat}, (unitsOfRank i / one : ℚ) ≤ 0 ↔ i = 0 := fun {i} ↦ by
    rw [← Nat.le_zero, ← hmono (j := 0), unitsOfRank_zero, Nat.cast_zero, zero_div]
  cases x with
  | nan | infinite => exact absurd hx (by simp)
  | finite s p =>
    cases y with
    | nan | infinite => exact absurd hy (by simp)
    | finite t q =>
      have hp := unitsOfRank_div_one_nonneg p
      have hq := unitsOfRank_div_one_nonneg q
      rw [toRat_finite, toRat_finite]
      cases s <;> cases t <;> simp only [Double.le, compareBy, place, sign, Bool.false_eq_true,
        if_true, if_false, one_mul, neg_one_mul, decide_eq_true_eq]
      · rw [hmono, Nat.cast_le]
      · constructor
        · intro hle
          rw [hzero.2 (by omega : p.val = 0) |>.antisymm hp, hzero.2 (by omega : q.val = 0)
            |>.antisymm hq, neg_zero]
        · intro hle
          have hp' : p.val = 0 := hzero.1 (by linarith)
          have hq' : q.val = 0 := hzero.1 (by linarith)
          omega
      · exact ⟨fun _ ↦ by linarith, fun _ ↦ by omega⟩
      · rw [neg_le_neg_iff, neg_le_neg_iff, hmono, Nat.cast_le]

theorem lt_iff_toRat_lt (hx : x.isFinite = true) (hy : y.isFinite = true) :
    Double.lt x y = true ↔ x.toRat < y.toRat := by
  have hnot : Double.lt x y = !Double.le y x := by
    cases x with
    | nan | infinite => exact absurd hx (by simp)
    | finite s p =>
      cases y with
      | nan | infinite => exact absurd hy (by simp)
      | finite t q => simp only [Double.lt, Double.le, compareBy, place, ← decide_not, not_le]
  rw [hnot, Bool.not_eq_true', ← not_le, ← le_iff_toRat_le hy hx, Bool.not_eq_true]

theorem eqv_iff_toRat_eq (hx : x.isFinite = true) (hy : y.isFinite = true) :
    Double.eqv x y = true ↔ x.toRat = y.toRat := by
  have heqv : Double.eqv x y = (Double.le x y && Double.le y x) := by
    cases x with
    | nan | infinite => exact absurd hx (by simp)
    | finite s p =>
      cases y with
      | nan | infinite => exact absurd hy (by simp)
      | finite t q =>
        rw [Bool.eq_iff_iff]
        simp only [Double.eqv, Double.le, compareBy, place, beq_iff_eq, Bool.and_eq_true,
          decide_eq_true_eq]
        exact le_antisymm_iff
  rw [heqv, Bool.and_eq_true, le_iff_toRat_le hx hy, le_iff_toRat_le hy hx, le_antisymm_iff]

/-! ### The nearest double -/

/-- The significand of a finite double is even. -/
def IsEven : Double → Prop
  | finite _ rank => rank.val % 2 = 0
  | _ => False

theorem isEven_negate (x : Double) : x.negate.IsEven ↔ x.IsEven := by
  cases x <;> rfl

/-- A finite double is nearest to a number, and is even if another one is as near. -/
structure IsNearest (x : Double) (v : ℚ) : Prop where
  isFinite : x.isFinite = true
  abs_sub_le : ∀ y : Double, y.isFinite = true → |x.toRat - v| ≤ |y.toRat - v|
  even : ∀ y : Double, y.isFinite = true → y.toRat ≠ x.toRat →
    |x.toRat - v| = |y.toRat - v| → x.IsEven

/-- Doubles of lesser magnitude are at most the one before. -/
theorem toRat_le_of_lt {rank : Nat} (hy : y.isFinite = true)
    (hlt : y.toRat < unitsOfRank rank / one) : y.toRat ≤ unitsOfRank (rank - 1) / one := by
  cases y with
  | nan | infinite => exact absurd hy (by simp)
  | finite t q =>
    rw [toRat_finite] at hlt ⊢
    have hnonneg := unitsOfRank_div_one_nonneg q
    have hnonneg' := unitsOfRank_div_one_nonneg (rank - 1)
    cases t with
    | false =>
      rw [sign, if_neg (by simp), one_mul] at hlt ⊢
      have hrank : q.val < rank := by
        by_contra hge
        exact absurd hlt (not_lt.2 (unitsOfRank_div_one_mono (Nat.le_of_not_lt hge)))
      exact unitsOfRank_div_one_mono (by omega)
    | true =>
      rw [sign, if_pos rfl, neg_one_mul]
      linarith

/-- Doubles of greater magnitude are at least the one after. -/
theorem le_toRat_of_lt {rank : Nat} (hy : y.isFinite = true)
    (hlt : (unitsOfRank rank / one : ℚ) < y.toRat) :
    (unitsOfRank (rank + 1) / one : ℚ) ≤ y.toRat := by
  cases y with
  | nan | infinite => exact absurd hy (by simp)
  | finite t q =>
    rw [toRat_finite] at hlt ⊢
    have hnonneg := unitsOfRank_div_one_nonneg q
    have hnonneg' := unitsOfRank_div_one_nonneg rank
    cases t with
    | false =>
      rw [sign, if_neg (by simp), one_mul] at hlt ⊢
      have hrank : rank < q.val := by
        by_contra hge
        exact absurd hlt (not_lt.2 (unitsOfRank_div_one_mono (Nat.le_of_not_lt hge)))
      exact unitsOfRank_div_one_mono hrank
    | true =>
      rw [sign, if_pos rfl, neg_one_mul] at hlt
      linarith

/-- A number is on the near side of the midpoint to a lesser double. -/
theorem RoundsTo.add_le_two_mul (h : x.RoundsTo v) (hy : y.isFinite = true)
    (hlt : y.toRat < x.toRat) :
    y.toRat + x.toRat ≤ 2 * v ∧ (¬x.IsEven → y.toRat + x.toRat < 2 * v) := by
  have hone := one_pos'
  obtain ⟨negative, rank, rfl, magnitude, hnonneg, rfl, hcell⟩ := h
  have hodd : ¬(finite negative rank).IsEven → rank.val % 2 = 1 := Nat.mod_two_ne_zero.1
  have hscale : 2 * (magnitude * one) / one = 2 * magnitude := by field_simp
  rw [toRat_finite] at hlt ⊢
  cases negative with
  | false =>
    rw [sign, if_neg (by simp), one_mul] at hlt ⊢
    have hprev := toRat_le_of_lt hy hlt
    have hlow := div_le_div_of_nonneg_right hcell.low hone.le
    rw [add_div, hscale] at hlow
    refine ⟨by linarith, fun heven ↦ ?_⟩
    have hstrict := div_lt_div_of_pos_right (hcell.low_lt (hodd heven)) hone
    rw [add_div, hscale] at hstrict
    linarith
  | true =>
    rw [sign, if_pos rfl, neg_one_mul] at hlt ⊢
    have hnext : (unitsOfRank (rank + 1) / one : ℚ) ≤ y.negate.toRat :=
      le_toRat_of_lt (isFinite_negate y ▸ hy) (by rw [toRat_negate]; linarith)
    rw [toRat_negate] at hnext
    have hhigh := div_le_div_of_nonneg_right hcell.high hone.le
    rw [add_div, hscale] at hhigh
    refine ⟨by linarith, fun heven ↦ ?_⟩
    have hstrict := div_lt_div_of_pos_right (hcell.lt_high (hodd heven)) hone
    rw [add_div, hscale] at hstrict
    linarith

/-- A number is on the near side of the midpoint to a greater double. -/
theorem RoundsTo.two_mul_le_add (h : x.RoundsTo v) (hy : y.isFinite = true)
    (hlt : x.toRat < y.toRat) :
    2 * v ≤ y.toRat + x.toRat ∧ (¬x.IsEven → 2 * v < y.toRat + x.toRat) := by
  have hnegate := h.negate.add_le_two_mul (isFinite_negate y ▸ hy)
    (by rw [toRat_negate, toRat_negate]; linarith)
  rw [isEven_negate, toRat_negate, toRat_negate] at hnegate
  exact ⟨by linarith [hnegate.1], fun heven ↦ by linarith [hnegate.2 heven]⟩

/-- **A number is rounded to the double that is nearest to it**, and halfway to the even one. -/
theorem RoundsTo.isNearest (h : x.RoundsTo v) : x.IsNearest v := by
  refine ⟨h.isFinite, fun y hy ↦ ?_, fun y hy hne heq ↦ ?_⟩
  · rcases lt_trichotomy y.toRat x.toRat with hlt | heq | hgt
    · have hmid := (h.add_le_two_mul hy hlt).1
      rw [abs_of_nonpos (show y.toRat - v ≤ 0 by linarith), abs_le]
      constructor <;> linarith
    · rw [heq]
    · have hmid := (h.two_mul_le_add hy hgt).1
      rw [abs_of_nonneg (show 0 ≤ y.toRat - v by linarith), abs_le]
      constructor <;> linarith
  · by_contra heven
    rcases lt_or_gt_of_ne hne with hlt | hgt
    · have hmid := (h.add_le_two_mul hy hlt).2 heven
      rw [abs_of_nonpos (show y.toRat - v ≤ 0 by linarith)] at heq
      rcases abs_choice (x.toRat - v) with habs | habs <;> linarith
    · have hmid := (h.two_mul_le_add hy hgt).2 heven
      rw [abs_of_nonneg (show 0 ≤ y.toRat - v by linarith)] at heq
      rcases abs_choice (x.toRat - v) with habs | habs <;> linarith

/-! ### How near -/

/-- A double differs from the number that is rounded to it by half a step at most. -/
theorem RoundsTo.abs_sub_le_half (h : x.RoundsTo v) :
    |x.toRat - v| ≤ |x.toRat| / 2 ^ 53 + 1 / one / 2 := by
  obtain ⟨negative, rank, rfl, magnitude, hnonneg, rfl, hcell⟩ := h
  have hone := one_pos'
  have hunits := div_le_div_of_nonneg_right hcell.abs_sub_le hone.le
  have hbound : (1 + (unitsOfRank rank : ℚ) / twoTo 52) / 2 / one =
      unitsOfRank rank / one / 2 ^ 53 + 1 / one / 2 := by
    rw [twoTo_eq]
    field_simp
    ring
  rw [hbound, ← abs_unitsOfRank_sub_div_one] at hunits
  rw [abs_toRat_finite]
  rwa [toRat_finite, ← mul_sub, abs_mul, abs_sign, one_mul]

/-- What a double differs from the number that is rounded to it, by that number. -/
theorem RoundsTo.abs_sub_le (h : x.RoundsTo v) :
    |x.toRat - v| ≤ |v| / (2 ^ 53 - 1) + 1 / one := by
  have hhalf := h.abs_sub_le_half
  have htriangle := abs_add_le v (x.toRat - v)
  rw [add_sub_cancel] at htriangle
  have hpos : (0 : ℚ) < 1 / one := one_div_pos.2 one_pos'
  generalize (1 : ℚ) / one = unit at *
  norm_num at hhalf ⊢
  linarith

/-! ### Which numbers are doubles -/

theorem exists_unitsOfRank_eq (i : Nat) : ∀ q ≤ twoTo 53, i ≤ 1074 →
    ∃ rank < rankCount, unitsOfRank rank = q * twoTo i := by
  have h52 : twoTo 52 = 4503599627370496 := rfl
  have h53 : twoTo 53 = 9007199254740992 := rfl
  have hcount : rankCount = 2047 * 4503599627370496 := rfl
  induction i with
  | zero =>
    intro q hq _
    refine ⟨0 * twoTo 52 + q, by omega, unitsOfRank_binade (Or.inl rfl) hq⟩
  | succ i ih =>
    intro q hq hi
    rcases Nat.lt_or_ge q (twoTo 52) with hlt | hge
    · obtain ⟨rank, hrank, hunits⟩ := ih (2 * q) (by omega) (by omega)
      refine ⟨rank, hrank, ?_⟩
      rw [hunits, Nat.add_comm i 1, twoTo_add, show twoTo 1 = 2 from rfl]
      ring
    · exact ⟨(i + 1) * twoTo 52 + q, by rw [h52]; omega, unitsOfRank_binade (Or.inr hge) hq⟩

/-- A number of 53 bits over a power of two is a double. -/
theorem exists_toRat_eq {n : Int} {j : Nat} (hn : n.natAbs ≤ twoTo 53) (hj : j ≤ 1074) :
    ∃ x : Double, x.isFinite = true ∧ x.toRat = n / twoTo j := by
  obtain ⟨rank, hrank, hunits⟩ := exists_unitsOfRank_eq (1074 - j) n.natAbs hn (Nat.sub_le _ _)
  refine ⟨finite (n < 0) ⟨rank, hrank⟩, rfl, ?_⟩
  have hone : (one : ℚ) = twoTo (1074 - j) * twoTo j := by
    rw [one, ← Nat.cast_mul, ← twoTo_add, Nat.sub_add_cancel hj]
  have hpos : (0 : ℚ) < twoTo (1074 - j) := by exact_mod_cast twoTo_pos _
  rw [toRat_finite, hunits, hone, Nat.cast_mul, mul_comm (n.natAbs : ℚ),
    mul_div_mul_left _ _ hpos.ne', ← mul_div_assoc, ← eq_sign_mul_natAbs]

/-- Such a number is not changed by rounding. -/
theorem RoundsTo.eq_div_twoTo {n : Int} {j : Nat} (h : x.RoundsTo (n / twoTo j))
    (hn : n.natAbs < twoTo 53) (hj : j ≤ 1074) : x.toRat = n / twoTo j := by
  obtain ⟨y, hy, heq⟩ := exists_toRat_eq hn.le hj
  exact (h.toRat_unique (heq ▸ roundsTo_toRat hy)).trans heq

/-- Where the doubles are so many bits apart, or nearer, a number is at most half a step away. -/
theorem RoundsTo.abs_sub_le_of_lt {j : Nat} (h : x.RoundsTo v) (hj : j ≤ 1074)
    (hv : |v| * twoTo j + 1 / 2 < twoTo 53) : |x.toRat - v| ≤ 1 / 2 / twoTo j := by
  have hpos : (0 : ℚ) < twoTo j := by exact_mod_cast twoTo_pos j
  have hround := abs_sub_round (v * twoTo j)
  generalize round (v * twoTo j) = n at hround
  have hn : n.natAbs < twoTo 53 := by
    have htriangle := abs_sub_abs_le_abs_sub (n : ℚ) (v * twoTo j)
    rw [abs_sub_comm, abs_mul, abs_of_pos hpos] at htriangle
    have hlt : ((n.natAbs : ℕ) : ℚ) < twoTo 53 := by
      rw [Nat.cast_natAbs, Int.cast_abs]
      linarith
    exact_mod_cast hlt
  obtain ⟨y, hy, heq⟩ := exists_toRat_eq hn.le hj
  refine (h.isNearest.abs_sub_le y hy).trans ?_
  rw [heq, le_div_iff₀ hpos, ← abs_of_pos hpos, ← abs_mul, abs_of_pos hpos, sub_mul,
    div_mul_cancel₀ _ hpos.ne', abs_sub_comm]
  exact hround

/-- A double that is not too small is a whole number over a power of two. -/
theorem exists_eq_div_twoTo {j : Nat} (hj : j ≤ 1074) (hx : x.isFinite = true)
    (hlarge : twoTo 52 / twoTo j ≤ |x.toRat|) : ∃ n : Int, x.toRat = n / twoTo j := by
  cases x with
  | nan | infinite => exact absurd hx (by simp)
  | finite negative rank =>
    have hone : one = twoTo (1074 - j) * twoTo j := by
      rw [one, ← twoTo_add, Nat.sub_add_cancel hj]
    have hpos : (0 : ℚ) < twoTo j := by exact_mod_cast twoTo_pos _
    have hpos' : (0 : ℚ) < twoTo (1074 - j) := by exact_mod_cast twoTo_pos _
    rw [abs_toRat_finite, hone, Nat.cast_mul, ← div_div, div_le_div_iff_of_pos_right hpos,
      le_div_iff₀ hpos', ← Nat.cast_mul, Nat.cast_le] at hlarge
    have hspacing : 1074 - j ≤ spacingExponent rank := by
      by_contra hlt
      have hsignificand : significand rank < 2 * twoTo 52 := by
        have hmod := Nat.mod_lt rank.val (twoTo_pos 52)
        rw [significand]
        split <;> omega
      have hunits : unitsOfRank rank < twoTo 52 * twoTo (1074 - j) :=
        calc unitsOfRank rank < 2 * twoTo 52 * twoTo (spacingExponent rank) :=
              Nat.mul_lt_mul_of_pos_right hsignificand (twoTo_pos _)
          _ = twoTo 52 * twoTo (1 + spacingExponent rank) := by
              rw [twoTo_add 1, show twoTo 1 = 2 from rfl]
              ring
          _ ≤ twoTo 52 * twoTo (1074 - j) := Nat.mul_le_mul_left _ (twoTo_le (by omega))
      omega
    have hunits : unitsOfRank rank =
        significand rank * twoTo (spacingExponent rank - (1074 - j)) * twoTo (1074 - j) := by
      rw [unitsOfRank, Nat.mul_assoc, ← twoTo_add, Nat.sub_add_cancel hspacing]
    generalize significand rank * twoTo (spacingExponent rank - (1074 - j)) = n at hunits
    refine ⟨applySign negative n, ?_⟩
    have hsign : (applySign negative n : ℚ) = sign negative * n := by
      cases negative <;> simp [applySign, sign]
    rw [toRat_finite, hunits, hone, hsign, Nat.cast_mul, Nat.cast_mul, mul_comm (n : ℚ),
      mul_div_mul_left _ _ hpos'.ne', mul_div_assoc]

theorem exists_toRat_eq_natCast {n : Nat} (hn : n ≤ twoTo 53) :
    ∃ x : Double, x.isFinite = true ∧ x.toRat = n := by
  obtain ⟨x, hx, heq⟩ := exists_toRat_eq (n := n) (j := 0) (by rwa [Int.natAbs_natCast]) (by decide)
  rw [show twoTo 0 = 1 from rfl, Nat.cast_one, div_one, Int.cast_natCast] at heq
  exact ⟨x, hx, heq⟩

theorem RoundsTo.natCast_le {n : Nat} (h : x.RoundsTo v) (hn : n < twoTo 53) (hle : n ≤ v) :
    n ≤ x.toRat := by
  obtain ⟨y, hy, heq⟩ := exists_toRat_eq_natCast hn.le
  exact heq ▸ h.ge_of_ge hy (heq ▸ hle)

theorem RoundsTo.le_natCast {n : Nat} (h : x.RoundsTo v) (hn : n < twoTo 53) (hle : v ≤ n) :
    x.toRat ≤ n := by
  obtain ⟨y, hy, heq⟩ := exists_toRat_eq_natCast hn.le
  exact heq ▸ h.le_of_le hy (heq ▸ hle)

/-- A whole number of 53 bits is not changed by rounding. -/
theorem RoundsTo.eq_natCast {n : Nat} (h : x.RoundsTo n) (hn : n < twoTo 53) : x.toRat = n :=
  le_antisymm (h.le_natCast hn le_rfl) (h.natCast_le hn le_rfl)

/-- A whole number of 53 bits stands for itself. -/
theorem toRat_ofNat {n : Nat} (hn : n < twoTo 53) :
    (OfNat.ofNat n : Double).isFinite = true ∧ (OfNat.ofNat n : Double).toRat = n := by
  have hlimit : |((n : Int) : ℚ)| < twoTo 1023 := by
    rw [Int.cast_natCast, Nat.abs_cast, Nat.cast_lt]
    exact hn.trans_le (twoTo_le (by decide))
  have hrounds := roundsTo_ofInt hlimit
  rw [Int.cast_natCast] at hrounds
  exact ⟨hrounds.isFinite, hrounds.eq_natCast hn⟩

/-- A whole number is a double, or its double is not below `2 ^ 53`. -/
theorem RoundsTo.eq_natCast_or_le {n : Nat} (h : x.RoundsTo n) :
    x.toRat = n ∨ twoTo 53 ≤ x.toRat := by
  rcases lt_or_ge n (twoTo 53) with hlt | hge
  · exact Or.inl (h.eq_natCast hlt)
  · obtain ⟨y, hy, heq⟩ := exists_toRat_eq_natCast le_rfl
    rw [← heq]
    exact Or.inr (h.ge_of_ge hy (heq ▸ by exact_mod_cast hge))

/-- From `2 ^ 52` on doubles are whole numbers. -/
theorem exists_abs_toRat_eq_natCast (hx : x.isFinite = true) (hlarge : twoTo 52 ≤ |x.toRat|) :
    ∃ n : Nat, |x.toRat| = n := by
  obtain ⟨z, hz⟩ := exists_eq_div_twoTo (j := 0) (by decide) hx
    (by rwa [show twoTo 0 = 1 from rfl, Nat.cast_one, div_one])
  refine ⟨z.natAbs, ?_⟩
  rw [hz, show twoTo 0 = 1 from rfl, Nat.cast_one, div_one, Nat.cast_natAbs, Int.cast_abs]

/-! ### Magnitudes -/

@[simp]
theorem isFinite_abs (x : Double) : x.abs.isFinite = x.isFinite := by
  cases x <;> rfl

theorem toRat_abs (x : Double) : x.abs.toRat = |x.toRat| := by
  cases x with
  | nan | infinite => simp [Double.abs, toRat]
  | finite negative rank => rw [abs_toRat_finite, Double.abs, toRat_finite, sign, if_neg (by simp),
      one_mul]

theorem abs_toRat_pos (hx : x.isFiniteNonzero = true) : 0 < |x.toRat| := by
  cases x with
  | nan | infinite => exact absurd hx (by simp [isFiniteNonzero])
  | finite negative rank =>
    have hrank : rank.val ≠ 0 := by simpa [isFiniteNonzero, isZero] using hx
    rw [abs_toRat_finite]
    exact div_pos (by exact_mod_cast unitsOfRank_pos hrank) one_pos'

theorem isFiniteNonzero_of_abs_pos (h : 0 < |x.toRat|) : x.isFiniteNonzero = true := by
  cases x with
  | nan | infinite => exact absurd h (by simp [toRat])
  | finite negative rank =>
    have hrank : rank.val ≠ 0 := by
      intro hzero
      rw [abs_toRat_finite, hzero, unitsOfRank_zero, Nat.cast_zero, zero_div] at h
      exact absurd h (lt_irrefl _)
    simpa [isFiniteNonzero, isZero] using hrank

theorem RoundsTo.abs {v : ℚ} (h : x.RoundsTo v) : x.abs.RoundsTo |v| := by
  obtain ⟨negative, rank, rfl, magnitude, hnonneg, rfl, hcell⟩ := h
  refine ⟨false, rank, rfl, magnitude, hnonneg, ?_, hcell⟩
  rw [abs_mul, abs_sign, one_mul, abs_of_nonneg hnonneg, sign, if_neg (by simp), one_mul]

theorem RoundsTo.abs_le_natCast {v : ℚ} {n : Nat} (h : x.RoundsTo v) (hn : n < twoTo 53)
    (hle : |v| ≤ n) : |x.toRat| ≤ n :=
  toRat_abs x ▸ h.abs.le_natCast hn hle

theorem roundsTo_abs_iff {negative : Bool} {rank : Fin rankCount} {v : ℚ} (hv : 0 ≤ v) :
    (finite negative rank).abs.RoundsTo v ↔ Cell rank (v * one) := by
  constructor
  · rintro ⟨_, _, heq, magnitude, -, rfl, hcell⟩
    obtain ⟨rfl, rfl⟩ := finite.inj heq
    rwa [sign, if_neg (by simp), one_mul]
  · exact fun hcell ↦ ⟨false, rank, rfl, v, hv, by rw [sign, if_neg (by simp), one_mul], hcell⟩

/-- What is rounded to a double is below the limit. -/
theorem RoundsTo.lt_limit (h : x.RoundsTo v) (hv : 0 ≤ v) : v < limit := by
  obtain ⟨rank, -, hcell⟩ := h.exists_rank hv
  by_contra hge
  have hrank := hcell.rankCount_le_iff.2 (mul_le_mul_of_nonneg_right (not_lt.1 hge) one_pos'.le)
  exact absurd rank.isLt (not_lt.2 hrank)

/-- What lies between a magnitude and a number of its cell belongs to the cell. -/
theorem Cell.of_between {rank : Nat} {units units' : ℚ} (h : Cell rank units)
    (hle : unitsOfRank rank ≤ units') (hle' : units' ≤ units) : Cell rank units' := by
  have hprev : (unitsOfRank (rank - 1) : ℚ) ≤ unitsOfRank rank := by
    exact_mod_cast unitsOfRank_strictMono.monotone (Nat.sub_le rank 1)
  refine ⟨by linarith, by linarith [h.high], fun hodd ↦ ?_, fun hodd ↦ by linarith [h.lt_high hodd]⟩
  have hprev' : (unitsOfRank (rank - 1) : ℚ) < unitsOfRank rank := by
    exact_mod_cast unitsOfRank_strictMono (show rank - 1 < rank by omega)
  linarith

/-- No magnitude is nearer to a number than the one that it is rounded to. -/
theorem RoundsTo.abs_toRat_sub_le (h : y.abs.RoundsTo v) (hx : x.isFinite = true) :
    |(|y.toRat|) - v| ≤ |(|x.toRat|) - v| := by
  have hnearest := h.isNearest.abs_sub_le x.abs (by rwa [isFinite_abs])
  rwa [toRat_abs, toRat_abs] at hnearest

/-- What a number is rounded to by steps, and then to a double, is rounded to the same steps. -/
theorem IsRounded.of_roundsTo {n : Nat} {step : ℚ} (h : IsRounded n (|x.toRat| / step))
    (hx : x.isFinite = true) (hstep : 0 < step) (hy : y.abs.RoundsTo (n * step)) :
    IsRounded n (|y.toRat| / step) := by
  have hle : |(n : ℚ) - |y.toRat| / step| ≤ |(n : ℚ) - |x.toRat| / step| := by
    rw [← mul_le_mul_iff_left₀ hstep, abs_sub_div_mul hstep, abs_sub_div_mul hstep, abs_sub_comm,
      abs_sub_comm _ (|x.toRat|)]
    exact hy.abs_toRat_sub_le hx
  exact ⟨hle.trans h.1, fun hodd ↦ hle.trans_lt (h.2 hodd)⟩

/-- What lies between a magnitude and what is rounded to it is rounded to it too. -/
theorem RoundsTo.of_between (h : x.abs.RoundsTo w) (hle : |x.toRat| ≤ v) (hle' : v ≤ w) :
    x.abs.RoundsTo v := by
  have hone := one_pos'
  have hv := (abs_nonneg _).trans hle
  cases x with
  | nan | infinite => exact absurd h.isFinite (by simp [Double.abs])
  | finite negative rank =>
    rw [roundsTo_abs_iff (hv.trans hle')] at h
    rw [roundsTo_abs_iff hv]
    rw [abs_toRat_finite, div_le_iff₀ hone] at hle
    exact h.of_between hle (mul_le_mul_of_nonneg_right hle' hone.le)

/-- A decimal below the limit is rounded to a double. -/
theorem roundsTo_ofDecimal {digits : Nat} {exponent : Int}
    (h : (digits : ℚ) * 10 ^ exponent < limit) :
    (ofDecimal false digits exponent).RoundsTo (digits * 10 ^ exponent) := by
  obtain ⟨rank, heq, hcell⟩ := exists_ofDecimal_eq false h
  exact ⟨false, rank, heq, _, decimal_nonneg _ _, by rw [sign, if_neg (by simp), one_mul], hcell⟩

/-! ### The least magnitudes -/

theorem ten_zpow_pos (k : Int) : (0 : ℚ) < 10 ^ k := zpow_pos (by norm_num) k

/-- What is less than half a unit away from a magnitude belongs to its cell. -/
theorem cell_of_lt_half {rank : Nat} {units : ℚ} (hunits : 0 ≤ units)
    (h : |units - unitsOfRank rank| < 1 / 2) : Cell rank units := by
  obtain ⟨hlow, hhigh⟩ := abs_lt.1 h
  have hnext : (unitsOfRank rank : ℚ) + 1 ≤ unitsOfRank (rank + 1) := by
    exact_mod_cast unitsOfRank_strictMono (Nat.lt_succ_self rank)
  have hprev : (unitsOfRank (rank - 1) + unitsOfRank rank : ℚ) ≤ 2 * units ∧
      (rank % 2 = 1 → (unitsOfRank (rank - 1) + unitsOfRank rank : ℚ) < 2 * units) := by
    rcases Nat.eq_zero_or_pos rank with rfl | hpos
    · refine ⟨?_, fun hodd ↦ absurd hodd (by decide)⟩
      rw [show 0 - 1 = 0 from rfl, unitsOfRank_zero, Nat.cast_zero, add_zero]
      positivity
    · have hlt : (unitsOfRank (rank - 1) : ℚ) + 1 ≤ unitsOfRank rank := by
        exact_mod_cast unitsOfRank_strictMono (show rank - 1 < rank by omega)
      exact ⟨by linarith, fun _ ↦ by linarith⟩
  exact ⟨hprev.1, by linarith, hprev.2, fun _ ↦ by linarith⟩

/-- Half a step after the last place of any double is too little to move a number. -/
theorem cell_of_small_step {rank : Nat} {value : ℚ} (hvalue : 0 ≤ value)
    (h : |value - unitsOfRank rank / one| ≤ 10 ^ (-324 : Int) / 2) : Cell rank (value * one) := by
  have hone := one_pos'
  refine cell_of_lt_half (mul_nonneg hvalue hone.le) ?_
  rw [← abs_sub_div_mul hone]
  have hunits : (10 ^ (-324 : Int) * one : ℚ) ≤ 3 * 10 ^ (-1 : Int) :=
    (ten_zpow_mul_one_bounds (-324)).2
  have hclose := mul_le_mul_of_nonneg_right h hone.le
  rw [div_mul_eq_mul_div] at hclose
  generalize (10 ^ (-324 : Int) * one : ℚ) = units at hunits hclose
  norm_num at hunits
  linarith

theorem ten_zpow_mul_one_le {K : Int} (hK : K ≤ -308) : (10 : ℚ) ^ K * one ≤ twoTo 52 := by
  have hpow : (10 : ℚ) ^ (K + 323) ≤ 10 ^ 15 := by
    rw [← zpow_natCast]
    exact zpow_le_zpow_right₀ (by norm_num) (by push_cast; omega)
  have hunits := (ten_zpow_mul_one_bounds K).2
  rw [twoTo_eq]
  generalize (one : ℚ) = unit at hunits ⊢
  norm_num at hpow hunits ⊢
  linarith

theorem unitsOfRank_of_le {rank : Nat} (h : rank ≤ twoTo 53) : unitsOfRank rank = rank := by
  have heq : unitsOfRank (0 * twoTo 52 + rank) = rank * twoTo 0 :=
    unitsOfRank_binade (Or.inl rfl) h
  rwa [Nat.zero_mul, Nat.zero_add, show twoTo 0 = 1 from rfl, Nat.mul_one] at heq

theorem unitsOfRank_eq_self {rank : Nat} (h : unitsOfRank rank < twoTo 52) :
    unitsOfRank rank = rank := by
  refine unitsOfRank_of_le ?_
  by_contra hlt
  have hmono := unitsOfRank_strictMono.monotone (Nat.le_of_not_le hlt)
  rw [unitsOfRank_of_le le_rfl] at hmono
  exact absurd (twoTo_le (show 52 ≤ 53 by decide)) (by omega)

/-- In the lowest binade magnitudes are a unit apart, so that the cell of a rank reaches as far to
either side. -/
theorem Cell.of_abs_sub_le {rank : Nat} {units units' : ℚ} (hpos : 0 < rank)
    (hrank : rank < twoTo 52) (h : Cell rank units) (hle : |units' - rank| ≤ |units - rank|) :
    Cell rank units' := by
  have h52 : twoTo 52 = 4503599627370496 := rfl
  have h53 : twoTo 53 = 9007199254740992 := rfl
  have hunits : ∀ r ≤ twoTo 53, unitsOfRank r = r := fun r ↦ unitsOfRank_of_le
  have hprev : ((rank - 1 : ℕ) : ℚ) = rank - 1 := by
    rw [Nat.cast_sub hpos, Nat.cast_one]
  obtain ⟨hlow, hhigh, hlow', hhigh'⟩ := h
  rw [hunits (rank - 1) (by omega), hunits rank (by omega), hprev] at hlow hlow'
  rw [hunits rank (by omega), hunits (rank + 1) (by omega), Nat.cast_add_one] at hhigh hhigh'
  have hclose : |units - rank| ≤ 1 / 2 := by
    rw [abs_le]
    constructor <;> linarith
  have hclose' : rank % 2 = 1 → |units - rank| < 1 / 2 := fun hodd ↦ by
    rw [abs_lt]
    constructor <;> linarith [hlow' hodd, hhigh' hodd]
  obtain ⟨hbelow, habove⟩ := abs_le.1 (hle.trans hclose)
  have hstrict := fun hodd ↦ abs_lt.1 (hle.trans_lt (hclose' hodd))
  constructor <;>
    simp only [hunits (rank - 1) (by omega), hunits rank (by omega), hunits (rank + 1) (by omega),
      hprev, Nat.cast_add_one]
  · linarith
  · linarith
  · exact fun hodd ↦ by linarith [(hstrict hodd).1]
  · exact fun hodd ↦ by linarith [(hstrict hodd).2]

end Metrology.Double
