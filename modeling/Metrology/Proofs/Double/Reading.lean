import Metrology.Proofs.Double.Mantissa

/-!
# The double that a decimal is read as

There is one double that is nearest to a number and has a given sign (`IsNearest.eq`). Of two that
are equally near both would have even significands, and between two of these lies another double
(`exists_between`), which would be nearer still.

A decimal is read as a finite double exactly if its magnitude is below the limit
(`isFinite_ofDecimal_iff`), and then as the one that is nearest to it and has its sign
(`ofDecimal_eq_iff`). The sign counts for zero alone, to which small decimals of either sign are
rounded.
-/

namespace Metrology.Double

variable {x y : Double} {v : ℚ}

/-! ### The nearest double is unique -/

theorem eq_of_toRat_eq (hx : x.isFinite = true) (hy : y.isFinite = true)
    (hsign : x.isNegative = y.isNegative) (h : x.toRat = y.toRat) : x = y := by
  cases x with
  | nan | infinite => exact absurd hx (by simp)
  | finite s p =>
    cases y with
    | nan | infinite => exact absurd hy (by simp)
    | finite t q =>
      obtain rfl : s = t := hsign
      have hunits := congrArg (|·|) h
      simp only [abs_toRat_finite] at hunits
      have hrank : unitsOfRank p = unitsOfRank q :=
        Nat.cast_injective ((div_left_inj' one_pos'.ne').1 hunits)
      rw [Fin.ext (unitsOfRank_strictMono.injective hrank)]

/-- Above a double with an even significand lies another one before the next of that kind. -/
theorem exists_between_of_pos (hx : x.IsEven) (hy : y.IsEven) (hlt : x.toRat < y.toRat)
    (hpos : 0 < y.toRat) :
    ∃ z : Double, z.isFinite = true ∧ x.toRat < z.toRat ∧ z.toRat < y.toRat := by
  cases x with
  | nan | infinite => exact absurd hx (by simp [IsEven])
  | finite s p =>
    cases y with
    | nan | infinite => exact absurd hy (by simp [IsEven])
    | finite t q =>
      obtain rfl : t = false := isNegative_of_toRat_pos hpos
      have hvalue : ∀ rank : Fin rankCount,
          (finite false rank).toRat = unitsOfRank rank / one := fun rank ↦ by
        rw [toRat_finite, sign, if_neg (by simp), one_mul]
      have hq : q.val ≠ 0 := by
        intro hzero
        rw [hvalue, hzero, unitsOfRank_zero, Nat.cast_zero, zero_div] at hpos
        exact absurd hpos (lt_irrefl _)
      -- the double before the greater one has an odd significand, so it is not the lesser one
      let z : Double := finite false ⟨q - 1, by omega⟩
      have hzy : z.toRat < (finite false q).toRat := by
        rw [hvalue, hvalue]
        exact div_lt_div_of_pos_right
          (by exact_mod_cast unitsOfRank_strictMono (show q.val - 1 < q by omega)) one_pos'
      have hxz : (finite s p).toRat ≤ z.toRat := by
        rw [hvalue] at hlt
        exact hvalue ⟨q - 1, by omega⟩ ▸ toRat_le_of_lt rfl hlt
      refine ⟨z, rfl, hxz.lt_of_ne fun heq ↦ ?_, hzy⟩
      have hodd : (q.val - 1) % 2 = 1 := by
        have heven : q.val % 2 = 0 := hy
        omega
      have hzpos : 0 < z.toRat := by
        rw [hvalue]
        exact div_pos (by exact_mod_cast unitsOfRank_pos (by omega : q.val - 1 ≠ 0)) one_pos'
      have hsame : finite s p = z :=
        eq_of_toRat_eq rfl rfl (isNegative_of_toRat_pos (heq ▸ hzpos)) heq
      obtain ⟨-, rfl⟩ := finite.inj hsame
      exact absurd (show (q.val - 1) % 2 = 0 from hx) (by omega)

/-- Between two doubles with even significands lies another one. -/
theorem exists_between (hx : x.IsEven) (hy : y.IsEven) (hlt : x.toRat < y.toRat) :
    ∃ z : Double, z.isFinite = true ∧ x.toRat < z.toRat ∧ z.toRat < y.toRat := by
  rcases lt_or_ge 0 y.toRat with hpos | hnonpos
  · exact exists_between_of_pos hx hy hlt hpos
  · have hnegate : y.negate.toRat < x.negate.toRat := by
      rw [toRat_negate, toRat_negate]
      exact neg_lt_neg hlt
    obtain ⟨z, hz, hyz, hzx⟩ := exists_between_of_pos ((isEven_negate y).2 hy)
      ((isEven_negate x).2 hx) hnegate (by rw [toRat_negate]; linarith)
    rw [toRat_negate] at hyz hzx
    refine ⟨z.negate, by rwa [isFinite_negate], ?_, ?_⟩ <;> rw [toRat_negate] <;> linarith

theorem IsNearest.toRat_le (hx : x.IsNearest v) (hy : y.IsNearest v) : x.toRat ≤ y.toRat := by
  by_contra hlt
  rw [not_le] at hlt
  have hdistance : |x.toRat - v| = |y.toRat - v| :=
    le_antisymm (hx.abs_sub_le y hy.isFinite) (hy.abs_sub_le x hx.isFinite)
  have hxeven := hx.even y hy.isFinite hlt.ne hdistance
  have hyeven := hy.even x hx.isFinite hlt.ne' hdistance.symm
  obtain ⟨z, hz, hyz, hzx⟩ := exists_between hyeven hxeven hlt
  -- the number is halfway between the two, so what lies between them is nearer
  have hmid : 2 * v = x.toRat + y.toRat := by
    rcases abs_eq_abs.1 hdistance with h | h <;> linarith
  have hnear := hx.abs_sub_le z hz
  rw [abs_of_nonneg (by linarith : 0 ≤ x.toRat - v), le_abs] at hnear
  rcases hnear with h | h <;> linarith

/-- **There is one nearest double of either sign.** -/
theorem IsNearest.eq (hx : x.IsNearest v) (hy : y.IsNearest v)
    (hsign : x.isNegative = y.isNegative) : x = y :=
  eq_of_toRat_eq hx.isFinite hy.isFinite hsign (le_antisymm (hx.toRat_le hy) (hy.toRat_le hx))

/-! ### Reading decimals -/

variable {negative : Bool} {digits : Nat} {exponent : Int}

/-- A decimal below the limit is read as the double nearest to it, with its sign. -/
theorem isNearest_ofDecimal (negative : Bool) (h : (digits : ℚ) * 10 ^ exponent < limit) :
    (ofDecimal negative digits exponent).IsNearest (sign negative * (digits * 10 ^ exponent)) ∧
      (ofDecimal negative digits exponent).isNegative = negative := by
  obtain ⟨rank, heq, hcell⟩ := exists_ofDecimal_eq negative h
  have hrounds : (finite negative rank).RoundsTo (sign negative * (digits * 10 ^ exponent)) :=
    ⟨negative, rank, rfl, _, decimal_nonneg digits exponent, rfl, hcell⟩
  rw [heq]
  exact ⟨hrounds.isNearest, rfl⟩

theorem isFinite_ofDecimal_iff :
    (ofDecimal negative digits exponent).isFinite = true ↔
      (digits : ℚ) * 10 ^ exponent < limit := by
  refine ⟨fun hfinite ↦ ?_, fun h ↦ (isNearest_ofDecimal negative h).1.isFinite⟩
  by_contra hge
  rw [ofDecimal_eq_infinite negative (not_lt.1 hge)] at hfinite
  exact absurd hfinite (by simp)

theorem ofDecimal_eq_iff (h : (digits : ℚ) * 10 ^ exponent < limit) :
    ofDecimal negative digits exponent = x ↔
      x.IsNearest (sign negative * (digits * 10 ^ exponent)) ∧ x.isNegative = negative := by
  obtain ⟨hnearest, hsign⟩ := isNearest_ofDecimal negative h
  constructor
  · rintro rfl
    exact ⟨hnearest, hsign⟩
  · exact fun hx ↦ hnearest.eq hx.1 (hsign.trans hx.2.symm)

end Metrology.Double
