import Metrology.Double.Shortest
import Metrology.Proofs.Double.Decimal

/-!
# The shortest decimal reads back

The search for the digits of a double ends with a decimal that becomes the double again
(`ofDecimal_shortest`). Whatever the search tries is tested before it is taken, so what has to be
shown is that the last attempt succeeds: seventeen digits leave a step of a part in `10 ^ 16` of the
magnitude, and half of it is less than half the distance to either neighbour, a part in `2 ^ 53`
(`unitsOfRank_succ_le`).

A decimal is tested in half units, which says that it lies in the cell of the magnitude
(`readsBack_iff`). The better one of the two decimals next to a magnitude is the magnitude rounded
to places (`neighbours_eq`).
-/

namespace Metrology.Double

/-! ### Decimal size -/

variable {n num den : Nat}

theorem tenTo_succ (k : Nat) : tenTo (k + 1) = 10 * tenTo k := by
  rw [tenTo, tenTo, Nat.pow_eq, Nat.pow_eq, pow_succ']

theorem tenTo_le {j k : Nat} (h : j ≤ k) : tenTo j ≤ tenTo k :=
  Nat.pow_le_pow_right (by decide) h

theorem lt_tenTo_lengthFrom {steps k : Nat} (h : n < tenTo (k + steps)) :
    n < tenTo (lengthFrom n steps k) := by
  induction steps generalizing k with
  | zero => exact h
  | succ steps ih =>
    rw [lengthFrom]
    split
    · assumption
    · exact ih (by rwa [Nat.add_right_comm])

theorem tenTo_lengthFrom_le {steps k : Nat} (h : tenTo k ≤ 10 * n) :
    tenTo (lengthFrom n steps k) ≤ 10 * n := by
  induction steps generalizing k with
  | zero => exact h
  | succ steps ih =>
    rw [lengthFrom]
    split
    · exact h
    · next hge =>
      refine ih ?_
      rw [tenTo_succ]
      exact Nat.mul_le_mul_left 10 (Nat.not_lt.1 hge)

/-- A power of ten is bounded by powers of two through their logarithms. -/
theorem tenTo_mul_div_le {a b : Nat} (hb : b ≠ 0) (h : tenTo a ≤ twoTo b) (k : Nat) :
    tenTo (k * a / b) ≤ twoTo k := by
  simp only [tenTo, twoTo, Nat.pow_eq] at h ⊢
  refine (Nat.pow_le_pow_iff_left hb).1 ?_
  calc (10 ^ (k * a / b)) ^ b = 10 ^ (k * a / b * b) := (pow_mul _ _ _).symm
    _ ≤ 10 ^ (a * k) :=
      Nat.pow_le_pow_right (by decide) ((Nat.div_mul_le_self _ _).trans (Nat.mul_comm k a).le)
    _ = (10 ^ a) ^ k := pow_mul _ _ _
    _ ≤ (2 ^ b) ^ k := Nat.pow_le_pow_left h k
    _ = (2 ^ k) ^ b := by rw [← pow_mul, ← pow_mul, Nat.mul_comm]

theorem lt_tenTo_decimalLength (n : Nat) : n < tenTo (decimalLength n) := by
  rw [decimalLength]
  split
  · next hzero => exact hzero ▸ tenTo_pos 0
  · refine lt_tenTo_lengthFrom ((lt_twoTo_log2 n).trans_le ?_)
    calc twoTo (n.log2 + 1) ≤ tenTo (n.log2 + 1) := Nat.pow_le_pow_left (by decide) _
      _ ≤ _ := tenTo_le (Nat.le_add_left _ _)

theorem tenTo_decimalLength_le (h : n ≠ 0) : tenTo (decimalLength n) ≤ 10 * n := by
  rw [decimalLength, if_neg h]
  refine tenTo_lengthFrom_le (((tenTo_mul_div_le (by decide) ?_ n.log2).trans
    (twoTo_log2_le h)).trans (Nat.le_mul_of_pos_left n (by decide)))
  decide +kernel

/-- The lengths of two numbers leave a factor of ten for their quotient. -/
theorem ten_zpow_decimalLength_le (hnum : 0 < num) (den : Nat) :
    (10 : ℚ) ^ ((decimalLength num : Int) - decimalLength den - 1) * den ≤ num := by
  have hlow : (10 : ℚ) ^ (decimalLength num : Int) ≤ 10 * num := by
    rw [zpow_natCast, ← tenTo_eq]
    exact_mod_cast tenTo_decimalLength_le hnum.ne'
  have hhigh : (den : ℚ) ≤ 10 ^ (decimalLength den : Int) := by
    rw [zpow_natCast, ← tenTo_eq]
    exact_mod_cast (lt_tenTo_decimalLength den).le
  calc (10 : ℚ) ^ ((decimalLength num : Int) - decimalLength den - 1) * den
      ≤ 10 ^ ((decimalLength num : Int) - decimalLength den - 1) *
          10 ^ (decimalLength den : Int) := by gcongr
    _ = 10 ^ ((decimalLength num : Int) - 1) := by
        rw [← zpow_add₀ (by norm_num)]
        congr 1
        omega
    _ = 10 ^ (decimalLength num : Int) / 10 := by rw [zpow_sub_one₀ (by norm_num), div_eq_mul_inv]
    _ ≤ num := by linarith

/-- The leading digit of a quotient is not above it. -/
theorem ten_zpow_leadingExponent_le (hnum : 0 < num) (hden : 0 < den) :
    (10 : ℚ) ^ leadingExponent num den ≤ num / den := by
  have hden' : (0 : ℚ) < den := Nat.cast_pos.2 hden
  rw [leadingExponent, le_div_iff₀ hden']
  have hbelow := ten_zpow_decimalLength_le hnum den
  generalize (decimalLength num : Int) - decimalLength den = guess at hbelow ⊢
  rcases Int.le_total 0 guess with hnonneg | hneg
  · obtain ⟨k, rfl⟩ := Int.eq_ofNat_of_zero_le hnonneg
    simp only [if_pos hnonneg]
    split
    · next hreached =>
      rw [zpow_natCast, ← tenTo_eq, mul_comm]
      exact_mod_cast hreached
    · exact hbelow
  · obtain ⟨k, hk⟩ := Int.eq_ofNat_of_zero_le (show 0 ≤ -guess by omega)
    obtain rfl : guess = -k := by omega
    have hreach : den ≤ num * tenTo k → (10 : ℚ) ^ (-k : Int) * den ≤ num := by
      intro hreached
      rw [zpow_neg, zpow_natCast, inv_mul_le_iff₀ (by positivity), ← tenTo_eq, mul_comm]
      exact_mod_cast hreached
    rcases Nat.eq_zero_or_pos k with rfl | hpos
    · simp only [Nat.cast_zero, neg_zero, le_refl, if_true, Int.toNat_zero]
      split
      · next hreached => exact hreach (by simpa [tenTo] using hreached)
      · exact hbelow
    · simp only [if_neg (show ¬0 ≤ -(k : Int) by omega), neg_neg, Int.toNat_natCast]
      split
      · next hreached => exact hreach hreached
      · exact hbelow

/-! ### Decimals in a cell -/

/-- A decimal as a rational number. -/
def Decimal.value (d : Decimal) : ℚ := d.digits * 10 ^ d.exponent

theorem Decimal.quotient_spec (d : Decimal) :
    0 < d.quotient.2 ∧ d.value = d.quotient.1 / d.quotient.2 := by
  rw [quotient, value]
  split
  · next hnonneg =>
    obtain ⟨k, hk⟩ := Int.eq_ofNat_of_zero_le hnonneg
    refine ⟨one_pos, ?_⟩
    rw [hk, Int.toNat_natCast, zpow_natCast, Nat.cast_mul, tenTo_eq, Nat.cast_one, div_one]
  · next hneg =>
    obtain ⟨k, hk⟩ := Int.eq_ofNat_of_zero_le (show 0 ≤ -d.exponent by omega)
    refine ⟨tenTo_pos _, ?_⟩
    rw [hk, Int.toNat_natCast, tenTo_eq, show d.exponent = -k by omega, zpow_neg, zpow_natCast,
      div_eq_mul_inv]

/-- A decimal passes the test when it lies in the cell of the magnitude. -/
theorem Decimal.readsBack_iff {rank : Nat} {d : Decimal} :
    d.readsBack rank = true ↔ Cell rank (d.value * one) := by
  obtain ⟨hden, hvalue⟩ := d.quotient_spec
  have hden' : (0 : ℚ) < d.quotient.2 := Nat.cast_pos.2 hden
  have hle : ∀ a b : Nat, (a * d.quotient.2 ≤ 2 * d.quotient.1 * one ↔
      (a : ℚ) ≤ 2 * (d.value * one)) ∧ (2 * d.quotient.1 * one ≤ b * d.quotient.2 ↔
      2 * (d.value * one) ≤ (b : ℚ)) := by
    intro a b
    have hunits : 2 * (d.value * one) = (2 * d.quotient.1 * one : ℕ) / (d.quotient.2 : ℚ) := by
      rw [hvalue, Nat.cast_mul, Nat.cast_mul, Nat.cast_ofNat]
      ring
    rw [hunits, le_div_iff₀ hden', div_le_iff₀ hden']
    exact ⟨by rw [← Nat.cast_mul, Nat.cast_le], by rw [← Nat.cast_mul, Nat.cast_le]⟩
  have hlt : ∀ a b : Nat, (a * d.quotient.2 < 2 * d.quotient.1 * one ↔
      (a : ℚ) < 2 * (d.value * one)) ∧ (2 * d.quotient.1 * one < b * d.quotient.2 ↔
      2 * (d.value * one) < (b : ℚ)) := fun a b ↦
    ⟨by rw [← not_le, ← not_le, (hle a a).2], by rw [← not_le, ← not_le, (hle b b).1]⟩
  rw [readsBack]
  simp only
  split
  · next heven =>
    rw [Bool.and_eq_true, decide_eq_true_iff, decide_eq_true_iff, (hle _ 0).1, (hle 0 _).2,
      Nat.cast_add, Nat.cast_add]
    exact ⟨fun h ↦ ⟨h.1, h.2, fun hodd ↦ by omega, fun hodd ↦ by omega⟩, fun h ↦ ⟨h.low, h.high⟩⟩
  · next hodd =>
    rw [Bool.and_eq_true, decide_eq_true_iff, decide_eq_true_iff, (hlt _ 0).1, (hlt 0 _).2,
      Nat.cast_add, Nat.cast_add]
    exact ⟨fun h ↦ ⟨h.1.le, h.2.le, fun _ ↦ h.1, fun _ ↦ h.2⟩,
      fun h ↦ ⟨h.low_lt (by omega), h.lt_high (by omega)⟩⟩

/-- What lies close to a magnitude, compared with the distances to its neighbours, lies in its
cell. -/
theorem cell_of_close {rank : Nat} {units : ℚ}
    (hbelow : units - unitsOfRank rank < (unitsOfRank (rank + 1) - unitsOfRank rank) / 2)
    (habove : unitsOfRank rank - units < ((unitsOfRank rank : ℚ) - unitsOfRank (rank - 1)) / 2) :
    Cell rank units where
  low := by linarith
  high := by linarith
  low_lt _ := by linarith
  lt_high _ := by linarith

/-! ### Neighbours -/

/-- The decimals next to a magnitude are the whole numbers next to a quotient, and rounding to
places rounds that quotient. -/
theorem exists_neighbours_eq (rank : Nat) (exponent : Int) : ∃ num den,
    neighbours rank exponent = (⟨num / den, exponent⟩, ⟨num / den + 1, exponent⟩,
      2 * (num % den) < den || 2 * (num % den) == den && num / den % 2 == 0) ∧
    stepsAtPlaces rank (-exponent) = roundHalfEven num den := by
  rw [neighbours, stepsAtPlaces, neg_neg]
  rcases Int.lt_trichotomy exponent 0 with hneg | rfl | hpos
  · refine ⟨unitsOfRank rank * tenTo (-exponent).toNat, one, ?_, ?_⟩
    · rw [if_neg (by omega)]
    · rw [if_pos (by omega)]
  · have hstep : tenTo (Int.toNat 0) = 1 := rfl
    refine ⟨unitsOfRank rank, one, ?_, ?_⟩
    · rw [if_pos le_rfl, hstep, Nat.mul_one]
    · rw [neg_zero, if_pos le_rfl, hstep, Nat.mul_one]
  · refine ⟨unitsOfRank rank, one * tenTo exponent.toNat, ?_, ?_⟩
    · rw [if_pos (by omega)]
    · rw [if_neg (by omega)]

/-- The decimal that is tried first at an exponent is the magnitude rounded to places. -/
theorem neighbours_eq (rank : Nat) (exponent : Int) :
    (if (neighbours rank exponent).2.2 then (neighbours rank exponent).1
      else (neighbours rank exponent).2.1) = ⟨stepsAtPlaces rank (-exponent), exponent⟩ := by
  obtain ⟨num, den, hneighbours, hsteps⟩ := exists_neighbours_eq rank exponent
  rw [hneighbours, hsteps]
  simp only [roundHalfEven, Bool.or_eq_true, Bool.and_eq_true, decide_eq_true_iff, beq_iff_eq]
  split <;> split <;> simp only [Decimal.mk.injEq, and_true] <;> grind

theorem readsBack_of_nearestReadingBack? {rank : Nat} {exponent : Int} {d : Decimal}
    (h : nearestReadingBack? rank exponent = some d) : d.readsBack rank = true := by
  rw [nearestReadingBack?] at h
  rcases neighbours rank exponent with ⟨below, above, _ | _⟩ <;> grind

/-- A magnitude rounded to places is found if it reads back. -/
theorem isSome_nearestReadingBack? {rank : Nat} {exponent : Int}
    (h : Cell rank (roundedAt rank (-exponent) * one)) :
    (nearestReadingBack? rank exponent).isSome = true := by
  have hfirst : Decimal.readsBack rank ⟨stepsAtPlaces rank (-exponent), exponent⟩ = true := by
    rw [Decimal.readsBack_iff, Decimal.value]
    rwa [roundedAt, neg_neg] at h
  rw [← neighbours_eq] at hfirst
  rw [nearestReadingBack?]
  generalize neighbours rank exponent = found at hfirst ⊢
  obtain ⟨below, above, takesLower⟩ := found
  cases takesLower with
  | false =>
    have habove : Decimal.readsBack rank above = true := hfirst
    simp [habove]
  | true =>
    have hbelow : Decimal.readsBack rank below = true := hfirst
    simp [hbelow]

/-! ### The search -/

/-- A magnitude is at most `2 ^ 53` steps of the spacing below it. -/
theorem unitsOfRank_succ_le (rank : Nat) :
    unitsOfRank (rank + 1) ≤ twoTo 53 * twoTo (spacingExponent rank) := by
  have hsignificand : significand rank + 1 ≤ twoTo 53 := by
    have h53 : twoTo 53 = 2 * twoTo 52 := rfl
    have hmod := Nat.mod_lt rank (twoTo_pos 52)
    rw [significand]
    split <;> omega
  rw [unitsOfRank_succ, unitsOfRank]
  calc significand rank * twoTo (spacingExponent rank) + twoTo (spacingExponent rank)
      = (significand rank + 1) * twoTo (spacingExponent rank) := (Nat.succ_mul _ _).symm
    _ ≤ _ := Nat.mul_le_mul_right _ hsignificand

/-- A part in `10 ^ 16` of a magnitude is less than the spacing there. -/
theorem div_lt_of_le_mul {units spacing : Nat} (hunits : 0 < units)
    (h : units ≤ twoTo 53 * spacing) : (units : ℚ) / 10 ^ 16 < spacing := by
  have h53 : (twoTo 53 : ℚ) < 10 ^ 16 := by
    rw [twoTo_eq]
    norm_num
  have hspacing : 0 < spacing := Nat.pos_of_ne_zero fun hzero ↦ by
    rw [hzero, Nat.mul_zero] at h
    omega
  have hle : (units : ℚ) ≤ twoTo 53 * spacing := by exact_mod_cast h
  rw [div_lt_iff₀ (by positivity), mul_comm]
  exact hle.trans_lt (mul_lt_mul_of_pos_right h53 (Nat.cast_pos.2 hspacing))

/-- With seventeen digits a magnitude reads back. -/
theorem cell_roundedAt {rank : Nat} (hrank : rank ≠ 0) {exponent : Int}
    (h : (10 : ℚ) ^ exponent ≤ unitsOfRank rank / one) :
    Cell rank (roundedAt rank (-(exponent - 16)) * one) := by
  obtain ⟨below, rfl⟩ := Nat.exists_eq_succ_of_ne_zero hrank
  have hone := one_pos'
  have hunits : 0 < unitsOfRank (below + 1) :=
    (Nat.zero_le _).trans_lt (unitsOfRank_strictMono (Nat.lt_succ_self below))
  -- half a step of the seventeenth digit, in units
  have hclose : |roundedAt (below + 1) (-(exponent - 16)) * one - unitsOfRank (below + 1)| ≤
      unitsOfRank (below + 1) / 10 ^ 16 / 2 := by
    have hrounded := abs_roundedAt_sub_le (below + 1) (-(exponent - 16))
    have hstep : (10 : ℚ) ^ (exponent - 16) * one ≤ unitsOfRank (below + 1) / 10 ^ 16 := by
      rw [zpow_sub₀ (by norm_num), div_mul_eq_mul_div]
      exact div_le_div_of_nonneg_right ((le_div_iff₀ hone).1 h) (by positivity)
    rw [neg_neg] at hrounded
    calc |roundedAt (below + 1) (-(exponent - 16)) * one - unitsOfRank (below + 1)|
        = |roundedAt (below + 1) (-(exponent - 16)) - unitsOfRank (below + 1) / one| * one := by
          rw [← abs_of_pos hone, ← abs_mul, sub_mul, abs_of_pos hone, div_mul_cancel₀ _ hone.ne']
      _ ≤ 10 ^ (exponent - 16) / 2 * one := mul_le_mul_of_nonneg_right hrounded hone.le
      _ ≤ unitsOfRank (below + 1) / 10 ^ 16 / 2 := by linarith
  -- the distance to a neighbour is larger than a step
  have hlower := div_lt_of_le_mul hunits (unitsOfRank_succ_le below)
  have hupper := div_lt_of_le_mul hunits ((unitsOfRank_strictMono.monotone (Nat.le_succ _)).trans
    (unitsOfRank_succ_le (below + 1)))
  rw [abs_le] at hclose
  refine cell_of_close ?_ ?_
  · rw [unitsOfRank_succ (below + 1), Nat.cast_add]
    linarith
  · rw [show below + 1 - 1 = below from rfl, unitsOfRank_succ below, Nat.cast_add,
      add_sub_cancel_left, ← Nat.cast_add, ← unitsOfRank_succ]
    linarith

theorem readsBack_shortestFrom {rank : Nat} {leading : Int}
    (h : (nearestReadingBack? rank (leading - 16)).isSome = true) {fuel : Nat} (hfuel : fuel ≤ 16) :
    (shortestFrom rank leading (fuel + 1)).readsBack rank = true := by
  induction fuel with
  | zero =>
    obtain ⟨d, hd⟩ := Option.isSome_iff_exists.1 h
    rw [shortestFrom, show leading - (16 - 0 : Nat) = leading - 16 from rfl, hd]
    exact readsBack_of_nearestReadingBack? hd
  | succ fuel ih =>
    rw [shortestFrom]
    split
    · next d hd => exact readsBack_of_nearestReadingBack? hd
    · exact ih (by omega)

/-- The shortest decimal of a magnitude lies in its cell. -/
theorem cell_shortest {rank : Nat} (hrank : rank ≠ 0) :
    Cell rank ((shortest rank).value * one) := by
  have hunits : 0 < unitsOfRank rank :=
    (Nat.zero_le _).trans_lt (unitsOfRank_strictMono (Nat.pos_of_ne_zero hrank))
  rw [← Decimal.readsBack_iff]
  exact readsBack_shortestFrom (isSome_nearestReadingBack?
    (cell_roundedAt hrank (ten_zpow_leadingExponent_le hunits (twoTo_pos 1074)))) le_rfl

/-- **The shortest decimal of a magnitude becomes that magnitude again.** -/
theorem ofDecimal_shortest (negative : Bool) {rank : Fin rankCount} (hrank : rank.val ≠ 0) :
    ofDecimal negative (shortest rank).digits (shortest rank).exponent = finite negative rank := by
  rw [ofDecimal_eq_of_cell negative (cell_shortest hrank), ofRank, dif_pos rank.isLt]

/-- The shortest decimal is not zero. -/
theorem digits_shortest_ne_zero {rank : Nat} (hrank : rank ≠ 0) : (shortest rank).digits ≠ 0 := by
  intro hzero
  have hcell := cell_shortest hrank
  rw [Decimal.value, hzero, Nat.cast_zero, zero_mul, zero_mul] at hcell
  exact hrank (hcell.unique (by exact_mod_cast cell_unitsOfRank 0))

end Metrology.Double
