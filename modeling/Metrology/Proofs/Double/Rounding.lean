import Mathlib.Algebra.Order.Ring.Nat
import Mathlib.Tactic.Linarith
import Metrology.Value

/-!
# Rounding

What `Double.nearestRank` makes of a quotient of units. Its rank is a number of whole binades and a
significand (`exists_nearestRank_eq`), and the magnitude at such a rank is the significand, shifted
(`unitsOfRank_binade`). So a magnitude is its own nearest one (`nearestRank_unitsOfRank`), and a
whole number that equals a double becomes this double (`ofInt_of_eqvInt`).
-/

namespace Metrology

theorem twoTo_pos (k : Nat) : 0 < twoTo k := Nat.pow_pos (by decide)

theorem twoTo_succ (k : Nat) : twoTo (k + 1) = twoTo k * 2 := rfl

theorem twoTo_add (j k : Nat) : twoTo (j + k) = twoTo j * twoTo k := Nat.pow_add 2 j k

theorem twoTo_le {j k : Nat} (h : j ≤ k) : twoTo j ≤ twoTo k :=
  Nat.pow_le_pow_right (by decide) h

theorem twoTo_log2_le {n : Nat} (h : n ≠ 0) : twoTo n.log2 ≤ n := Nat.log2_self_le h

theorem log2_lt {n k : Nat} (hn : n ≠ 0) (h : n < twoTo k) : n.log2 < k := (Nat.log2_lt hn).2 h

theorem lt_twoTo_log2 (n : Nat) : n < twoTo (n.log2 + 1) := Nat.lt_log2_self

namespace Double

/-! ### Binades -/

/-- The magnitude that is a significand and a number of binades up. A full significand may have
carried over into the next binade. -/
theorem unitsOfRank_binade {binade q : Nat} (hfull : binade = 0 ∨ twoTo 52 ≤ q)
    (hq : q ≤ twoTo 53) : unitsOfRank (binade * twoTo 52 + q) = q * twoTo binade := by
  have h52 : twoTo 52 = 4503599627370496 := rfl
  have h53 : twoTo 53 = 9007199254740992 := rfl
  rw [h53] at hq
  rw [h52] at hfull
  rcases Nat.lt_or_ge q 4503599627370496 with hlt | hge
  · -- below the first full significand there is only the lowest binade
    obtain rfl : binade = 0 := hfull.resolve_right (by omega)
    have hrank : 0 * twoTo 52 + q = q := by omega
    have hspacing : spacingExponent q = 0 := by rw [spacingExponent, h52]; omega
    rw [hrank, unitsOfRank, hspacing, significand, h52, if_pos hlt]
  · rcases Nat.lt_or_eq_of_le hq with hlt | rfl
    · have hspacing : spacingExponent (binade * twoTo 52 + q) = binade := by
        rw [spacingExponent, h52]; omega
      have hsignificand : significand (binade * twoTo 52 + q) = q := by
        rw [significand, h52, if_neg (by omega)]; omega
      rw [unitsOfRank, hspacing, hsignificand]
    · have hspacing : spacingExponent (binade * twoTo 52 + 9007199254740992) = 1 + binade := by
        rw [spacingExponent, h52]; omega
      have hsignificand :
          significand (binade * twoTo 52 + 9007199254740992) = 4503599627370496 := by
        rw [significand, h52, if_neg (by omega)]; omega
      rw [unitsOfRank, hspacing, hsignificand, twoTo_add, ← Nat.mul_assoc]
      rfl

theorem unitsOfRank_pos {rank : Nat} (h : rank ≠ 0) : 0 < unitsOfRank rank := by
  refine Nat.mul_pos ?_ (twoTo_pos _)
  rw [significand]
  split
  · omega
  · exact Nat.add_pos_left (twoTo_pos 52) _

theorem unitsOfRank_lt (rank : Fin rankCount) : unitsOfRank rank < twoTo 2098 := by
  have h52 : twoTo 52 = 4503599627370496 := rfl
  have hrank : (rank : Nat) < 2047 * 4503599627370496 := rank.isLt
  have hsignificand : significand rank < twoTo 53 := by
    rw [significand, show twoTo 53 = 9007199254740992 from rfl, h52]
    split <;> omega
  have hspacing : spacingExponent rank ≤ 2045 := by
    rw [spacingExponent, h52]
    omega
  calc significand rank * twoTo (spacingExponent rank)
      < twoTo 53 * twoTo (spacingExponent rank) :=
        Nat.mul_lt_mul_of_pos_right hsignificand (twoTo_pos _)
    _ ≤ twoTo 53 * twoTo 2045 := Nat.mul_le_mul_left _ (twoTo_le hspacing)
    _ = twoTo 2098 := (twoTo_add 53 2045).symm

theorem le_roundHalfEven (num den : Nat) : num / den ≤ roundHalfEven num den := by
  rw [roundHalfEven]
  split
  · exact le_rfl
  · split <;> omega

theorem roundHalfEven_le (num den : Nat) : roundHalfEven num den ≤ num / den + 1 := by
  rw [roundHalfEven]
  split
  · omega
  · split <;> omega

/-- The nearest rank is a number of binades and a significand. -/
theorem exists_nearestRank_eq (num den : Nat) :
    ∃ binade q, nearestRank num den = binade * twoTo 52 + q ∧
      (binade = 0 ∨ twoTo 52 ≤ q) ∧ q ≤ twoTo 53 ∧ binade = (num / den).log2 - 52 := by
  let n := num / den
  let binade := n.log2 - 52
  have hquotient : num / (den * twoTo binade) = n / twoTo binade :=
    (Nat.div_div_eq_div_mul num den (twoTo binade)).symm
  have hlow := le_roundHalfEven num (den * twoTo binade)
  have hhigh := roundHalfEven_le num (den * twoTo binade)
  rw [hquotient] at hlow hhigh
  have hupper : n / twoTo binade < twoTo 53 := by
    rw [Nat.div_lt_iff_lt_mul (twoTo_pos binade), ← twoTo_add]
    exact (lt_twoTo_log2 n).trans_le (twoTo_le (by omega))
  refine ⟨binade, roundHalfEven num (den * twoTo binade), rfl, ?_, by omega, rfl⟩
  rcases Nat.eq_zero_or_pos binade with hzero | hpos
  · exact Or.inl hzero
  · have hlog : n.log2 = 52 + binade := by omega
    have hn : n ≠ 0 := by
      intro h
      rw [h, Nat.log2_zero] at hlog
      omega
    have hpower := twoTo_log2_le hn
    rw [hlog, twoTo_add] at hpower
    exact Or.inr (((Nat.le_div_iff_mul_le (twoTo_pos binade)).2 hpower).trans hlow)

/-! ### Magnitudes are exact -/

theorem roundHalfEven_mul {den : Nat} (hden : 0 < den) (q : Nat) :
    roundHalfEven (q * den) den = q := by
  have hrest : q * den % den = 0 := Nat.mul_mod_left q den
  rw [roundHalfEven, hrest, if_pos (by omega), Nat.mul_div_cancel q hden]

/-- A magnitude is its own nearest one. -/
theorem nearestRank_unitsOfRank (rank : Nat) : nearestRank (unitsOfRank rank) 1 = rank := by
  have h52 : twoTo 52 = 4503599627370496 := rfl
  -- the significand and its binade are found again in the magnitude
  have hfound : ∀ binade q, (unitsOfRank rank = q * twoTo binade) →
      (unitsOfRank rank).log2 - 52 = binade → nearestRank (unitsOfRank rank) 1 =
        binade * twoTo 52 + q := by
    intro binade q hunits hlog
    rw [nearestRank, Nat.div_one, hlog, Nat.one_mul, hunits,
      roundHalfEven_mul (twoTo_pos binade)]
  rcases Nat.lt_or_ge rank (twoTo 52) with hlt | hge
  · have hunits : unitsOfRank rank = rank * twoTo 0 := by
      rw [unitsOfRank, significand, if_pos hlt, spacingExponent, Nat.div_eq_of_lt hlt]
    have hlog : (unitsOfRank rank).log2 - 52 = 0 := by
      rw [hunits, show rank * twoTo 0 = rank from Nat.mul_one rank]
      rcases Nat.eq_zero_or_pos rank with rfl | hpos
      · rfl
      · have hlog := log2_lt hpos.ne' hlt
        omega
    rw [hfound 0 rank hunits hlog, Nat.zero_mul, Nat.zero_add]
  · let q := twoTo 52 + rank % twoTo 52
    let binade := rank / twoTo 52 - 1
    have hunits : unitsOfRank rank = q * twoTo binade := by
      rw [unitsOfRank, significand, if_neg (by omega), spacingExponent]
    have hlow : twoTo (52 + binade) ≤ unitsOfRank rank := by
      rw [hunits, twoTo_add]
      exact Nat.mul_le_mul_right _ (Nat.le_add_right _ _)
    have hhigh : unitsOfRank rank < twoTo (52 + binade + 1) := by
      have hq : q < twoTo 53 := by
        show twoTo 52 + rank % twoTo 52 < 9007199254740992
        have hmod := Nat.mod_lt rank (twoTo_pos 52)
        rw [h52] at hmod ⊢
        omega
      rw [hunits, show 52 + binade + 1 = 53 + binade by omega, twoTo_add]
      exact Nat.mul_lt_mul_of_pos_right hq (twoTo_pos binade)
    have hne : unitsOfRank rank ≠ 0 := ((twoTo_pos _).trans_le hlow).ne'
    have hlog : (unitsOfRank rank).log2 = 52 + binade := (Nat.log2_eq_iff hne).2 ⟨hlow, hhigh⟩
    rw [hfound binade q hunits (by omega)]
    show (rank / twoTo 52 - 1) * twoTo 52 + (twoTo 52 + rank % twoTo 52) = rank
    rw [h52] at hge ⊢
    omega

/-! ### Equal numbers -/

/-- A finite double that is not zero equals only itself. -/
theorem eq_of_eqv {x y : Double} (hx : x.isFiniteNonzero = true) (h : x.eqv y = true) : x = y := by
  rw [isFiniteNonzero, Bool.and_eq_true, Bool.not_eq_true'] at hx
  cases x with
  | nan | infinite => exact absurd hx.1 (by simp)
  | finite s p =>
    have hp : p.val ≠ 0 := beq_eq_false_iff_ne.1 hx.2
    cases y with
    | nan => exact absurd h (by simp [eqv, compareBy, place])
    | infinite t =>
      -- the places of the infinities lie beyond all ranks
      have hplace : (if s then -(p : Int) else p) =
          if t then -(rankCount : Int) else rankCount := by
        simpa [eqv, compareBy, place] using h
      have hlt := p.isLt
      split at hplace <;> split at hplace <;> omega
    | finite t q =>
      have hplace : (if s then -(p : Int) else p) = if t then -(q : Int) else q := by
        simpa [eqv, compareBy, place] using h
      have hsame : s = t ∧ p.val = q.val := by
        cases s <;> cases t <;> simp at hplace ⊢ <;> omega
      rw [hsame.1, Fin.ext hsame.2]

/-- A whole number that a double equals becomes this double. -/
theorem ofInt_of_eqvInt {x : Double} {n : Int} (hn : n ≠ 0) (h : Scalar.eqvInt x n = true) :
    ofInt n = x := by
  cases x with
  | nan | infinite => exact absurd h (by simp [Scalar.eqvInt])
  | finite negative rank =>
    have hone : (0 : Int) < one := by exact_mod_cast twoTo_pos 1074
    have hunits : signedUnits negative rank = n * (one : Int) := eq_of_beq h
    have hproduct : n.natAbs * one = unitsOfRank rank := by
      have habs := congrArg Int.natAbs hunits
      rw [Int.natAbs_mul, Int.natAbs_natCast] at habs
      rw [← habs, signedUnits]
      split <;> simp
    have hsign : decide (n < 0) = negative := by
      have hpos : 0 < unitsOfRank rank :=
        hproduct ▸ Nat.mul_pos (Int.natAbs_pos.2 hn) (twoTo_pos 1074)
      rw [signedUnits] at hunits
      cases negative with
      | true =>
        rw [if_pos rfl] at hunits
        exact decide_eq_true (by nlinarith)
      | false =>
        rw [if_neg (by simp)] at hunits
        exact decide_eq_false (by nlinarith)
    rw [ofInt, ofQuotient, hproduct, hsign, nearest, nearestRank_unitsOfRank, ofRank,
      dif_pos rank.isLt]

end Double

end Metrology
