import Mathlib.Algebra.Order.Field.Basic
import Mathlib.Data.Rat.Cast.Order
import Mathlib.Order.Monotone.Basic
import Mathlib.Tactic.FieldSimp
import Mathlib.Tactic.Linarith
import Mathlib.Tactic.Ring
import Metrology.Proofs.Double.Rounding

/-!
# The nearest magnitude

Every magnitude has a **cell**, the numbers between the midpoints to its two neighbours; a midpoint
belongs to the neighbour of even rank. `Double.Cell` says this of a rational number of units.

* Rounding a quotient gives the rank whose cell it lies in (`nearestRank_eq_iff`). That a cell is
  found rests on the distance to the next magnitude (`unitsOfRank_succ`), which only grows
  (`spacingExponent_mono`), so that a significand just above a power of two still has the lower
  midpoint where it should be.
* The cells are disjoint (`Cell.unique`), so whatever lies in the cell of a rank rounds to it.
* What a magnitude differs from the numbers in its cell is a part in `2 ^ 53` of it, or half a unit
  where magnitudes are a unit apart (`Cell.abs_sub_le`).
-/

namespace Metrology.Double

/-! ### The next magnitude -/

/-- The next magnitude is one step of the spacing away. -/
theorem unitsOfRank_succ (rank : Nat) :
    unitsOfRank (rank + 1) = unitsOfRank rank + twoTo (spacingExponent rank) := by
  have h52 : twoTo 52 = 4503599627370496 := rfl
  have h53 : twoTo 53 = 9007199254740992 := rfl
  -- a rank is a number of binades and a significand that is not the last one
  obtain ⟨binade, q, rfl, hfull, hq⟩ : ∃ binade q, rank = binade * twoTo 52 + q ∧
      (binade = 0 ∨ twoTo 52 ≤ q) ∧ q < twoTo 53 := by
    rw [h52, h53]
    rcases Nat.lt_or_ge rank 9007199254740992 with hlt | hge
    · exact ⟨0, rank, by omega, Or.inl rfl, hlt⟩
    · exact ⟨rank / 4503599627370496 - 1, 4503599627370496 + rank % 4503599627370496, by omega,
        Or.inr (by omega), by omega⟩
  have hspacing : spacingExponent (binade * twoTo 52 + q) = binade := by
    rw [spacingExponent, h52]
    rw [h52] at hfull
    rw [h53] at hq
    omega
  rw [hspacing, unitsOfRank_binade hfull hq.le, Nat.add_assoc,
    unitsOfRank_binade (hfull.imp_right fun h ↦ h.trans (Nat.le_succ q)) hq, Nat.succ_mul]

theorem unitsOfRank_strictMono : StrictMono unitsOfRank :=
  strictMono_nat_of_lt_succ fun rank ↦ by
    rw [unitsOfRank_succ]
    exact Nat.lt_add_of_pos_right (twoTo_pos _)

/-- The spacing is small against the magnitude, or a unit. -/
theorem twoTo_spacingExponent_le (rank : Nat) :
    spacingExponent rank = 0 ∨ twoTo 52 * twoTo (spacingExponent rank) ≤ unitsOfRank rank := by
  rcases Nat.lt_or_ge rank (twoTo 52) with hlt | hge
  · refine Or.inl ?_
    rw [spacingExponent, Nat.div_eq_of_lt hlt]
  · refine Or.inr (Nat.mul_le_mul_right _ ?_)
    rw [significand, if_neg (Nat.not_lt.2 hge)]
    exact Nat.le_add_right _ _

/-! ### Rounding to even -/

theorem div_eq_floor_add {num den : Nat} (hden : 0 < den) :
    (num : ℚ) / den = (num / den : Nat) + (num % den : Nat) / den := by
  have hden' : (den : ℚ) ≠ 0 := by exact_mod_cast hden.ne'
  have hnum : (num : ℚ) = den * (num / den : Nat) + (num % den : Nat) := by
    exact_mod_cast (Nat.div_add_mod num den).symm
  rw [hnum]
  field_simp

/-- A quotient is at most half a step from what it is rounded to, and less if that is odd. -/
theorem abs_roundHalfEven_sub_le (num : Nat) {den : Nat} (hden : 0 < den) :
    |(roundHalfEven num den : ℚ) - num / den| ≤ 1 / 2 ∧
      (roundHalfEven num den % 2 = 1 → |(roundHalfEven num den : ℚ) - num / den| < 1 / 2) := by
  have hden' : (0 : ℚ) < den := by exact_mod_cast hden
  rw [div_eq_floor_add hden, roundHalfEven]
  generalize num / den = floor
  generalize hrest : num % den = rest
  have hnonneg : (0 : ℚ) ≤ rest / den := by positivity
  split
  · next hlow =>
    have hhalf : (rest : ℚ) / den < 1 / 2 := by
      rw [div_lt_div_iff₀ hden' two_pos]
      exact_mod_cast (by omega : rest * 2 < 1 * den)
    have habs : |(floor : ℚ) - (floor + rest / den)| = rest / den := by
      rw [sub_add_cancel_left, abs_neg, abs_of_nonneg hnonneg]
    rw [habs]
    exact ⟨hhalf.le, fun _ ↦ hhalf⟩
  · split
    · next hhigh =>
      have hlt : rest < den := hrest ▸ Nat.mod_lt num hden
      have hhalf : (1 : ℚ) / 2 < rest / den := by
        rw [div_lt_div_iff₀ two_pos hden']
        exact_mod_cast (by omega : 1 * den < rest * 2)
      have hone : (rest : ℚ) / den ≤ 1 := (div_le_one hden').2 (by exact_mod_cast hlt.le)
      have habs : |((floor + 1 : Nat) : ℚ) - (floor + rest / den)| = 1 - rest / den := by
        rw [Nat.cast_add_one, add_sub_add_left_eq_sub, abs_of_nonneg (by linarith)]
      rw [habs]
      exact ⟨by linarith, fun _ ↦ by linarith⟩
    · next hlow hhigh =>
      -- halfway between two whole numbers, of which the even one is taken
      have hhalf : (rest : ℚ) / den = 1 / 2 := by
        rw [div_eq_div_iff hden'.ne' two_ne_zero]
        exact_mod_cast (by omega : rest * 2 = 1 * den)
      rw [hhalf, Nat.cast_add, add_sub_add_left_eq_sub]
      refine ⟨?_, fun hodd ↦ by omega⟩
      rcases Nat.mod_two_eq_zero_or_one floor with h | h <;> rw [h] <;> norm_num [abs_le]

/-! ### Cells -/

/-- The numbers of units that round to a magnitude. The midpoints to its neighbours are among them
if its rank is even. -/
structure Cell (rank : Nat) (units : ℚ) : Prop where
  low : (unitsOfRank (rank - 1) + unitsOfRank rank : ℚ) ≤ 2 * units
  high : 2 * units ≤ unitsOfRank rank + unitsOfRank (rank + 1)
  low_lt : rank % 2 = 1 → (unitsOfRank (rank - 1) + unitsOfRank rank : ℚ) < 2 * units
  lt_high : rank % 2 = 1 → 2 * units < unitsOfRank rank + unitsOfRank (rank + 1)

/-- The cells are in the order of their ranks. -/
theorem Cell.le_of_le {rank rank' : Nat} {units units' : ℚ} (h : Cell rank units)
    (h' : Cell rank' units') (hle : units ≤ units') : rank ≤ rank' := by
  by_contra hlt
  have hmono : ∀ {i j : Nat}, i ≤ j → (unitsOfRank i : ℚ) ≤ unitsOfRank j := fun hij ↦ by
    exact_mod_cast unitsOfRank_strictMono.monotone hij
  have hhigh := hmono (show rank' + 1 ≤ rank by omega)
  have hlow := hmono (show rank' ≤ rank - 1 by omega)
  have h₁ := h.low
  have h₂ := h'.high
  rcases Nat.eq_or_lt_of_le (show rank' + 1 ≤ rank by omega) with rfl | hfar
  · -- of two neighbours one has an odd rank, so the midpoint is not shared
    rcases Nat.mod_two_eq_zero_or_one rank' with heven | hodd
    · have hstrict := h.low_lt (by omega)
      linarith
    · have hstrict := h'.lt_high hodd
      linarith
  · have hstrict : (unitsOfRank (rank' + 1) : ℚ) < unitsOfRank rank := by
      exact_mod_cast unitsOfRank_strictMono hfar
    linarith

/-- A number lies in one cell only. -/
theorem Cell.unique {rank rank' : Nat} {units : ℚ} (h : Cell rank units)
    (h' : Cell rank' units) : rank = rank' :=
  Nat.le_antisymm (h.le_of_le h' le_rfl) (h'.le_of_le h le_rfl)

/-- Below a magnitude is another one, half a step of the binade away where a binade begins. -/
theorem unitsOfRank_pred {binade q : Nat} (hq : q ≤ twoTo 53)
    (hfull : binade = 0 ∧ 0 < q ∨ twoTo 52 < q) :
    unitsOfRank (binade * twoTo 52 + q) =
      unitsOfRank (binade * twoTo 52 + q - 1) + twoTo binade := by
  have h52 : twoTo 52 = 4503599627370496 := rfl
  have h53 : twoTo 53 = 9007199254740992 := rfl
  rw [h52] at hfull
  rw [h53] at hq
  have hspacing : spacingExponent (binade * twoTo 52 + q - 1) = binade := by
    rw [spacingExponent, h52]
    omega
  have hsucc := unitsOfRank_succ (binade * twoTo 52 + q - 1)
  rwa [hspacing, Nat.sub_add_cancel (by omega)] at hsucc

/-- A number of steps of a binade lies in the cell of the rank at the nearest whole number of steps.
The magnitude below may be half a step away only, but then the number is not below. -/
theorem cell_of_steps {rank binade q : Nat} {steps : ℚ}
    (hunits : (unitsOfRank rank : ℚ) = q * twoTo binade) (hparity : rank % 2 = q % 2)
    (hclose : |(q : ℚ) - steps| ≤ 1 / 2) (hodd : q % 2 = 1 → |(q : ℚ) - steps| < 1 / 2)
    (habove : (q * twoTo binade + twoTo binade : ℚ) ≤ unitsOfRank (rank + 1))
    (hbelow : (unitsOfRank (rank - 1) + twoTo binade : ℚ) = q * twoTo binade ∨
      (unitsOfRank (rank - 1) : ℚ) ≤ q * twoTo binade ∧ q ≤ steps ∧
        (q % 2 = 1 → (unitsOfRank (rank - 1) : ℚ) < q * twoTo binade)) :
    Cell rank (steps * twoTo binade) := by
  have hstep : (0 : ℚ) < twoTo binade := by exact_mod_cast twoTo_pos binade
  rw [abs_le] at hclose
  rw [abs_lt] at hodd
  have hupper : steps * twoTo binade ≤ (q + 1 / 2) * twoTo binade :=
    mul_le_mul_of_nonneg_right (by linarith) hstep.le
  have hlower : (q - 1 / 2) * twoTo binade ≤ steps * twoTo binade :=
    mul_le_mul_of_nonneg_right (by linarith) hstep.le
  have hupper' : q % 2 = 1 → steps * twoTo binade < (q + 1 / 2) * twoTo binade := fun h ↦
    mul_lt_mul_of_pos_right (by linarith [hodd h]) hstep
  have hlower' : q % 2 = 1 → (q - 1 / 2) * twoTo binade < steps * twoTo binade := fun h ↦
    mul_lt_mul_of_pos_right (by linarith [hodd h]) hstep
  have hlow : (unitsOfRank (rank - 1) + q * twoTo binade : ℚ) ≤ 2 * (steps * twoTo binade) ∧
      (q % 2 = 1 →
        (unitsOfRank (rank - 1) + q * twoTo binade : ℚ) < 2 * (steps * twoTo binade)) := by
    rcases hbelow with heq | ⟨hle, hsteps, hlt⟩
    · exact ⟨by linarith, fun h ↦ by linarith [hlower' h]⟩
    · have hproduct := mul_le_mul_of_nonneg_right hsteps hstep.le
      exact ⟨by linarith, fun h ↦ by linarith [hlt h]⟩
  constructor <;> rw [hunits]
  · exact hlow.1
  · linarith
  · exact fun h ↦ hlow.2 (hparity ▸ h)
  · exact fun h ↦ by linarith [hupper' (hparity ▸ h)]

/-- A quotient in a binade above the lowest is at least as large as its least magnitude. -/
theorem twoTo_mul_le {num den binade : Nat} (hden : 0 < den)
    (hbinade : binade = (num / den).log2 - 52) (hpos : 0 < binade) :
    twoTo 52 * (den * twoTo binade) ≤ num := by
  have hlog : (num / den).log2 = 52 + binade := by omega
  have hne : num / den ≠ 0 := by
    intro h
    rw [h, Nat.log2_zero] at hlog
    omega
  have hpower := twoTo_log2_le hne
  rw [hlog, twoTo_add, Nat.le_div_iff_mul_le hden] at hpower
  calc twoTo 52 * (den * twoTo binade) = twoTo 52 * twoTo binade * den := by ring
    _ ≤ num := hpower

/-- A quotient lies in the cell of the rank that it is rounded to. -/
theorem cell_nearestRank (num : Nat) {den : Nat} (hden : 0 < den) :
    Cell (nearestRank num den) (num / den) := by
  have h52 : twoTo 52 = 4503599627370496 := rfl
  obtain ⟨binade, q, hrank, hfull, hq, hbinade⟩ := exists_nearestRank_eq num den
  have hround : q = roundHalfEven num (den * twoTo binade) := by
    rw [nearestRank, ← hbinade] at hrank
    omega
  obtain ⟨hclose, hodd⟩ := abs_roundHalfEven_sub_le num (Nat.mul_pos hden (twoTo_pos binade))
  rw [← hround] at hclose hodd
  -- the quotient in steps of the binade
  have hstep : (0 : ℚ) < twoTo binade := by exact_mod_cast twoTo_pos binade
  have hquotient : (num : ℚ) / den = num / (den * twoTo binade : Nat) * twoTo binade := by
    rw [Nat.cast_mul, ← div_div, div_mul_cancel₀ _ hstep.ne']
  have hunits : unitsOfRank (nearestRank num den) = q * twoTo binade := by
    rw [hrank, unitsOfRank_binade (hfull) hq]
  have hparity : nearestRank num den % 2 = q % 2 := by
    rw [hrank, h52]
    omega
  rw [hquotient]
  refine cell_of_steps (by rw [hunits, Nat.cast_mul]) hparity hclose hodd ?_ ?_
  · have hspacing : binade ≤ spacingExponent (nearestRank num den) := by
      rw [hrank, spacingExponent, h52]
      rw [h52] at hfull
      omega
    rw [unitsOfRank_succ, hunits]
    exact_mod_cast Nat.add_le_add_left (twoTo_le hspacing) _
  · have hpredLe : unitsOfRank (nearestRank num den - 1) ≤ q * twoTo binade :=
      hunits ▸ unitsOfRank_strictMono.monotone (Nat.sub_le _ 1)
    by_cases hfirst : 0 < q ∧ (binade = 0 ∨ twoTo 52 < q)
    · refine Or.inl ?_
      have hpred := unitsOfRank_pred hq (hfirst.2.imp_left fun h ↦ ⟨h, hfirst.1⟩)
      rw [← hrank, hunits] at hpred
      exact_mod_cast hpred.symm
    · -- at the beginning of a binade the quotient is not below the magnitude
      have hle : (q : ℚ) ≤ num / (den * twoTo binade : Nat) := by
        rcases Nat.eq_zero_or_pos q with rfl | hpos
        · rw [Nat.cast_zero]
          exact div_nonneg (Nat.cast_nonneg _) (Nat.cast_nonneg _)
        · rw [le_div_iff₀ (by exact_mod_cast Nat.mul_pos hden (twoTo_pos binade))]
          obtain rfl : q = twoTo 52 := by omega
          exact_mod_cast twoTo_mul_le hden hbinade (by omega)
      refine Or.inr ⟨by exact_mod_cast hpredLe, hle, fun hq ↦ ?_⟩
      have hlt :=
        unitsOfRank_strictMono (show nearestRank num den - 1 < nearestRank num den by omega)
      rw [hunits] at hlt
      exact_mod_cast hlt

/-- Rounding gives the rank whose cell the quotient lies in. -/
theorem nearestRank_eq_iff {num den rank : Nat} (hden : 0 < den) :
    nearestRank num den = rank ↔ Cell rank (num / den) :=
  ⟨fun h ↦ h ▸ cell_nearestRank num hden, fun h ↦ (cell_nearestRank num hden).unique h⟩

/-- Every number of units lies in some cell. -/
theorem exists_cell {units : ℚ} (h : 0 ≤ units) : ∃ rank, Cell rank units := by
  have hcell := cell_nearestRank units.num.toNat units.pos
  have hnum : ((units.num.toNat : ℕ) : ℚ) = units.num := by
    exact_mod_cast Int.toNat_of_nonneg (Rat.num_nonneg.2 h)
  rw [hnum, Rat.num_div_den] at hcell
  exact ⟨_, hcell⟩

/-- A magnitude lies in its own cell. -/
theorem cell_unitsOfRank (rank : Nat) : Cell rank (unitsOfRank rank) := by
  have hcell := cell_nearestRank (unitsOfRank rank) one_pos
  rwa [nearestRank_unitsOfRank, Nat.cast_one, div_one] at hcell

/-- A magnitude is about what rounds to it. -/
theorem Cell.abs_sub_le {rank : Nat} {units : ℚ} (h : Cell rank units) :
    |unitsOfRank rank - units| ≤ (1 + unitsOfRank rank / twoTo 52) / 2 := by
  have h52 : (0 : ℚ) < twoTo 52 := by exact_mod_cast twoTo_pos 52
  -- the next magnitude is at most so far away, and so is the one before
  have hspacing : ∀ i ≤ rank,
      (twoTo (spacingExponent i) : ℚ) ≤ 1 + unitsOfRank rank / twoTo 52 := by
    intro i hi
    have hnonneg : (0 : ℚ) ≤ unitsOfRank rank / twoTo 52 := by positivity
    have hmono : (unitsOfRank i : ℚ) ≤ unitsOfRank rank := by
      exact_mod_cast unitsOfRank_strictMono.monotone hi
    rcases twoTo_spacingExponent_le i with hzero | hle
    · rw [hzero, show twoTo 0 = 1 from rfl, Nat.cast_one]
      linarith
    · have hdiv : (twoTo (spacingExponent i) : ℚ) ≤ unitsOfRank i / twoTo 52 := by
        rw [le_div_iff₀ h52, mul_comm]
        exact_mod_cast hle
      have := div_le_div_of_nonneg_right hmono h52.le
      linarith
  have hhigh := h.high
  have hlow := h.low
  have hsucc : (unitsOfRank (rank + 1) : ℚ) = unitsOfRank rank + twoTo (spacingExponent rank) := by
    exact_mod_cast unitsOfRank_succ rank
  have hpred : (unitsOfRank rank : ℚ) ≤
      unitsOfRank (rank - 1) + twoTo (spacingExponent (rank - 1)) := by
    have hsucc := unitsOfRank_succ (rank - 1)
    have hle := unitsOfRank_strictMono.monotone (show rank ≤ rank - 1 + 1 by omega)
    exact_mod_cast hle.trans hsucc.le
  have hself := hspacing rank le_rfl
  have hprev := hspacing (rank - 1) (Nat.sub_le rank 1)
  rw [abs_le]
  constructor <;> linarith

end Metrology.Double
