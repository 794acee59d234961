import Mathlib.Analysis.SpecialFunctions.Log.Deriv
import Metrology.Proofs.Double.Logarithm

/-!
# The series of the natural logarithm

The fixed-point series of a logarithm is within `2 ^ (-190)` of the logarithm
(`abs_lnValue_sub_log_le`). The partial sums of the series are within a geometric remainder of half
the logarithm, and in fixed point every term is a unit or so from the exact one: the powers keep an
error of at most four units, since each step multiplies it by less than one eighth
(`abs_oddSeries_sub_le`).
-/

namespace Metrology.Double

open Finset

/-! ### The rounding of one step -/

theorem abs_ediv_sub_le (n : Int) {d : Nat} (hd : 0 < d) :
    |((n / (d : Int) : Int) : ℝ) - n / d| ≤ 1 := by
  have hd' : (0 : ℝ) < d := by exact_mod_cast hd
  have hrest := Int.emod_nonneg n (show (d : Int) ≠ 0 by omega)
  have hrest' := Int.emod_lt_of_pos n (show (0 : Int) < d by omega)
  have hn : (n : ℝ) = d * (n / (d : Int) : Int) + (n % (d : Int) : Int) := by
    exact_mod_cast (Int.mul_ediv_add_emod n d).symm
  have hvalue : (n : ℝ) / d = (n / (d : Int) : Int) + (n % (d : Int) : Int) / d := by
    rw [hn]
    field_simp
  have hlow : (0 : ℝ) ≤ (n % (d : Int) : Int) / d :=
    div_nonneg (by exact_mod_cast hrest) hd'.le
  have hhigh : ((n % (d : Int) : Int) : ℝ) / d ≤ 1 :=
    (div_le_one hd').2 (by exact_mod_cast hrest'.le)
  rw [hvalue, abs_le]
  constructor <;> linarith

/-! ### The series -/

/-- What a number is in fixed point. -/
def scale : ℝ := twoTo seriesPlaces

theorem scale_eq : scale = 2 ^ 200 := by
  rw [scale, twoTo, Nat.pow_eq, Nat.cast_pow, Nat.cast_ofNat]
  rfl

variable {t : ℝ} {square : Int}

theorem abs_pow_le (ht : |t| ≤ 1 / 3) {k : Nat} (hk : k ≠ 0) : |t ^ k| ≤ 1 / 3 := by
  rw [abs_pow]
  exact (pow_le_of_le_one (abs_nonneg t) (ht.trans (by norm_num)) hk).trans ht

/-- The next power in fixed point. -/
theorem abs_next_power_sub_le (ht : |t| ≤ 1 / 3) (hsquare : |(square : ℝ) - t ^ 2 * scale| ≤ 2)
    {k : Nat} (hk : k ≠ 0) {power : Int} (hpower : |(power : ℝ) - t ^ k * scale| ≤ 4) :
    |((power * square / (twoTo seriesPlaces : Int) : Int) : ℝ) - t ^ (k + 2) * scale| ≤ 4 := by
  have hscale : (0 : ℝ) < scale := scale_eq ▸ by positivity
  have hlarge : (16 : ℝ) ≤ scale := by rw [scale_eq]; norm_num
  have hround := abs_ediv_sub_le (power * square) (twoTo_pos seriesPlaces)
  rw [← scale, Int.cast_mul] at hround
  -- the error of the power shrinks, that of the square is multiplied by a power
  have hsplit : (power : ℝ) * square / scale - t ^ (k + 2) * scale =
      (power - t ^ k * scale) * (square / scale) + t ^ k * (square - t ^ 2 * scale) := by
    field_simp
    ring
  have hsmall : |(square : ℝ) / scale| ≤ 1 / 4 := by
    have hexact : |t ^ 2 * scale| ≤ scale / 9 := by
      rw [abs_mul, abs_of_pos hscale, abs_pow]
      have hpow := pow_le_pow_left₀ (abs_nonneg t) ht 2
      nlinarith
    have htriangle := abs_add_le ((square : ℝ) - t ^ 2 * scale) (t ^ 2 * scale)
    rw [sub_add_cancel] at htriangle
    rw [abs_div, abs_of_pos hscale, div_le_iff₀ hscale]
    linarith
  have hfirst : |((power : ℝ) - t ^ k * scale) * (square / scale)| ≤ 4 * (1 / 4) := by
    rw [abs_mul]
    exact mul_le_mul hpower hsmall (abs_nonneg _) (by norm_num)
  have hsecond : |t ^ k * ((square : ℝ) - t ^ 2 * scale)| ≤ 1 / 3 * 2 := by
    rw [abs_mul]
    exact mul_le_mul (abs_pow_le ht hk) hsquare (abs_nonneg _) (by norm_num)
  have hexact := abs_add_le (((power : ℝ) - t ^ k * scale) * (square / scale))
    (t ^ k * (square - t ^ 2 * scale))
  rw [← hsplit] at hexact
  have htriangle := abs_sub_le
    ((power * square / (twoTo seriesPlaces : Int) : Int) : ℝ) ((power : ℝ) * square / scale)
    (t ^ (k + 2) * scale)
  linarith

/-- A sum of terms in fixed point is five units a term from the exact one at most. -/
theorem abs_oddSeries_sub_le (ht : |t| ≤ 1 / 3) (hsquare : |(square : ℝ) - t ^ 2 * scale| ≤ 2)
    (terms : Nat) : ∀ (k : Nat) (power : Int), |(power : ℝ) - t ^ (2 * k + 1) * scale| ≤ 4 →
      |(oddSeries square terms (2 * k + 1) power : ℝ) -
        scale * ∑ i ∈ range terms, t ^ (2 * (k + i) + 1) / (2 * (k + i : ℕ) + 1)| ≤ 5 * terms := by
  induction terms with
  | zero =>
    intro k power _
    simp [oddSeries]
  | succ terms ih =>
    intro k power hpower
    have hrest := ih (k + 1) _ (abs_next_power_sub_le ht hsquare (Nat.succ_ne_zero _) hpower)
    have hodd : (1 : ℝ) ≤ 2 * k + 1 := by
      have := Nat.cast_nonneg (α := ℝ) k
      linarith
    have hround := abs_ediv_sub_le power (Nat.succ_pos (2 * k))
    have hexact : |(power : ℝ) / (2 * k + 1) - scale * (t ^ (2 * k + 1) / (2 * k + 1))| ≤ 4 := by
      rw [← mul_div_assoc, ← sub_div, abs_div, abs_of_pos (show (0 : ℝ) < 2 * k + 1 by linarith),
        mul_comm scale]
      exact (div_le_self (abs_nonneg _) hodd).trans hpower
    have hindex : ∀ i : Nat, t ^ (2 * (k + (i + 1)) + 1) / (2 * ((k + (i + 1) : ℕ) : ℝ) + 1) =
        t ^ (2 * (k + 1 + i) + 1) / (2 * ((k + 1 + i : ℕ) : ℝ) + 1) := fun i ↦ by
      rw [show k + (i + 1) = k + 1 + i by ring]
    rw [oddSeries, sum_range_succ', mul_add, sum_congr rfl fun i _ ↦ hindex i]
    push_cast at hround hrest ⊢
    rw [Nat.add_zero k, add_zero (k : ℝ)]
    rw [show 2 * (k + 1) + 1 = 2 * k + 1 + 2 by ring] at hrest
    rw [abs_le] at hround hexact hrest ⊢
    constructor <;> linarith [hround.1, hround.2, hexact.1, hexact.2, hrest.1, hrest.2]

/-! ### The logarithm -/

section Logarithm

variable {num den : Nat}

/-- The first power, and its square, in fixed point. -/
theorem abs_firstTerm_sub_le (hpos : 0 < num + den) :
    |(firstTerm num den : ℝ) - ((num : ℝ) - den) / (num + den) * scale| ≤ 1 := by
  have hround := abs_ediv_sub_le (((num : Int) - den) * twoTo seriesPlaces) hpos
  rw [firstTerm]
  push_cast at hround ⊢
  rwa [← scale, mul_div_right_comm] at hround

theorem abs_square_sub_le (ht : |t| ≤ 1 / 3) {first : Int}
    (hfirst : |(first : ℝ) - t * scale| ≤ 1) :
    |((first * first / (twoTo seriesPlaces : Int) : Int) : ℝ) - t ^ 2 * scale| ≤ 2 := by
  have hscale : (0 : ℝ) < scale := scale_eq ▸ by positivity
  have hlarge : (16 : ℝ) ≤ scale := by rw [scale_eq]; norm_num
  have hround := abs_ediv_sub_le (first * first) (twoTo_pos seriesPlaces)
  rw [← scale, Int.cast_mul] at hround
  have hsplit : (first : ℝ) * first / scale - t ^ 2 * scale =
      (first - t * scale) * ((first - t * scale) + 2 * (t * scale)) / scale := by
    field_simp
    ring
  have hsum : |(first - t * scale) + 2 * (t * scale)| ≤ scale := by
    have hexact : |2 * (t * scale)| ≤ 2 * (1 / 3 * scale) := by
      rw [abs_mul, abs_mul, abs_of_pos hscale, abs_of_pos two_pos]
      exact mul_le_mul_of_nonneg_left (mul_le_mul_of_nonneg_right ht hscale.le) zero_le_two
    have htriangle := abs_add_le (first - t * scale) (2 * (t * scale))
    linarith
  have hexact : |(first : ℝ) * first / scale - t ^ 2 * scale| ≤ 1 := by
    rw [hsplit, abs_div, abs_of_pos hscale, div_le_one hscale, abs_mul]
    calc |(first : ℝ) - t * scale| * |(first - t * scale) + 2 * (t * scale)|
        ≤ 1 * scale := mul_le_mul hfirst hsum (abs_nonneg _) zero_le_one
      _ = scale := one_mul _
  have htriangle := abs_sub_le
    ((first * first / (twoTo seriesPlaces : Int) : Int) : ℝ) ((first : ℝ) * first / scale)
    (t ^ 2 * scale)
  linarith

/-- The argument of the series. -/
theorem argument_spec (hpos : 0 < num + den) (hnum : num ≤ 2 * den) (hden : den ≤ 2 * num)
    (ht : t = ((num : ℝ) - den) / (num + den)) : |t| ≤ 1 / 3 ∧ (1 + t) / (1 - t) = num / den := by
  have hnum' : (num : ℝ) ≤ 2 * den := by exact_mod_cast hnum
  have hden' : (den : ℝ) ≤ 2 * num := by exact_mod_cast hden
  have hsum : (0 : ℝ) < num + den := by exact_mod_cast hpos
  constructor
  · rw [ht, abs_div, abs_of_pos hsum, div_le_iff₀ hsum, abs_le]
    constructor <;> linarith
  · have hplus : 1 + t = 2 * num / (num + den) := by
      rw [ht]
      field_simp
      ring
    have hminus : 1 - t = 2 * den / (num + den) := by
      rw [ht]
      field_simp
      ring
    rw [hplus, hminus, div_div_div_cancel_right₀ hsum.ne', mul_div_mul_left _ _ two_ne_zero]

/-- The terms that are summed leave little of the logarithm. -/
theorem abs_half_log_sub_le (ht : |t| ≤ 1 / 3) :
    |1 / 2 * Real.log ((1 + t) / (1 - t)) -
      ∑ i ∈ range 64, t ^ (2 * i + 1) / (2 * (i : ℝ) + 1)| ≤ 1 / 2 ^ 200 := by
  refine (Real.sum_range_sub_log_div_le (ht.trans_lt (by norm_num)) 64).trans ?_
  have hpow := pow_le_pow_left₀ (abs_nonneg t) ht (2 * 64 + 1)
  have hsquare := pow_le_pow_left₀ (abs_nonneg t) ht 2
  rw [sq_abs] at hsquare
  rw [div_le_iff₀ (by linarith)]
  norm_num at hpow hsquare ⊢
  linarith

/-- The sum in fixed point is near the sum of the terms. -/
theorem abs_seriesValue_sub_le {first : Int} (ht : |t| ≤ 1 / 3)
    (hfirst : |(first : ℝ) - t * scale| ≤ 1) :
    |(oddSeries (first * first / (twoTo seriesPlaces : Int)) 64 1 first : ℝ) / scale -
      ∑ i ∈ range 64, t ^ (2 * i + 1) / (2 * (i : ℝ) + 1)| ≤ 320 / scale := by
  have hscale : (0 : ℝ) < scale := scale_eq ▸ by positivity
  have hfixed := abs_oddSeries_sub_le ht (abs_square_sub_le ht hfirst) 64 0 first
    (by simpa using hfirst.trans (by norm_num))
  simp only [Nat.zero_add, mul_zero] at hfixed
  rw [le_div_iff₀ hscale, ← abs_of_pos hscale, ← abs_mul, abs_of_pos hscale, sub_mul,
    div_mul_cancel₀ _ hscale.ne', mul_comm _ scale]
  exact hfixed.trans (by norm_num)

/-- **The fixed-point logarithm is the natural logarithm** but for one in `2 ^ 190`. -/
theorem abs_lnValue_sub_log_le (hpos : 0 < num + den) (hnum : num ≤ 2 * den)
    (hden : den ≤ 2 * num) : |(lnValue num den : ℝ) - Real.log (num / den)| ≤ 1 / 2 ^ 190 := by
  obtain ⟨t, ht⟩ : ∃ t : ℝ, t = ((num : ℝ) - den) / (num + den) := ⟨_, rfl⟩
  obtain ⟨hsmall, hratio⟩ := argument_spec hpos hnum hden ht
  have hseries := abs_half_log_sub_le hsmall
  have hfixed := abs_seriesValue_sub_le hsmall (ht ▸ abs_firstTerm_sub_le hpos)
  have hvalue : (lnValue num den : ℝ) = 2 * (oddSeries
      (firstTerm num den * firstTerm num den / (twoTo seriesPlaces : Int)) 64 1
        (firstTerm num den) : ℝ) / scale := by
    rw [lnValue, lnFixed_eq, scale]
    push_cast
    rfl
  rw [hratio] at hseries
  rw [hvalue]
  generalize (oddSeries (firstTerm num den * firstTerm num den / (twoTo seriesPlaces : Int)) 64 1
    (firstTerm num den) : ℝ) = series at *
  have hbound : 320 / scale + 1 / 2 ^ 200 ≤ 1 / 2 ^ 191 := by
    rw [scale_eq]
    norm_num
  have htriangle := abs_sub_le (series / scale)
    (∑ i ∈ range 64, t ^ (2 * i + 1) / (2 * (i : ℝ) + 1)) (1 / 2 * Real.log (num / den))
  rw [abs_sub_comm (∑ i ∈ range 64, _)] at htriangle
  have hhalf : |series / scale - 1 / 2 * Real.log (num / den)| ≤ 1 / 2 ^ 191 := by linarith
  rw [show 2 * series / scale - Real.log (num / den) =
    2 * (series / scale - 1 / 2 * Real.log (num / den)) by ring, abs_mul, abs_of_pos two_pos]
  calc 2 * |series / scale - 1 / 2 * Real.log (num / den)| ≤ 2 * (1 / 2 ^ 191) :=
        mul_le_mul_of_nonneg_left hhalf zero_le_two
    _ = 1 / 2 ^ 190 := by norm_num

end Logarithm

end Metrology.Double
