import Mathlib.Algebra.Order.Field.Power
import Mathlib.Tactic.NormNum
import Metrology.Double.Places
import Metrology.Proofs.Double.Nearest

/-!
# Decimals and doubles

A decimal is a rational number, and so is a finite double (`Double.toRat`). What ties the two
together is the cell of a magnitude: a decimal becomes the double in whose cell it lies, infinity
included (`ofDecimal_eq_of_cell`), however far outside the range of the doubles it is.

Rounding to places first makes a decimal, half a step of the last place away at most
(`abs_roundedAt_sub_le`), and then a double of it. So it fails in one way: the decimal lies beyond
the doubles (`roundPlaces_overflow`, `exists_roundPlaces_eq`).
-/

namespace Metrology.Double

/-! ### Values -/

/-- The value of a finite double. -/
def toRat : Double → ℚ
  | finite negative rank => signedUnits negative rank / one
  | _ => 0

theorem one_pos' : (0 : ℚ) < one := by exact_mod_cast twoTo_pos 1074

theorem tenTo_eq (n : Nat) : (tenTo n : ℚ) = 10 ^ n := by
  rw [tenTo, Nat.pow_eq, Nat.cast_pow, Nat.cast_ofNat]

theorem twoTo_eq (n : Nat) : (twoTo n : ℚ) = 2 ^ n := by
  rw [twoTo, Nat.pow_eq, Nat.cast_pow, Nat.cast_ofNat]

theorem twoTo_lt {j k : Nat} (h : j < k) : twoTo j < twoTo k := Nat.pow_lt_pow_right (by decide) h

/-- A bound by a small power of two, which can be evaluated, against a large one, which cannot. -/
theorem lt_twoTo_of_le_pow {v : ℚ} {j k : Nat} (h : v ≤ 2 ^ j) (hjk : j < k) : v < twoTo k :=
  (h.trans_eq (twoTo_eq j).symm).trans_lt (Nat.cast_lt.2 (twoTo_lt hjk))

theorem tenTo_pos (n : Nat) : 0 < tenTo n := Nat.pow_pos (by decide)

/-! ### From decimals to doubles -/

theorem decimal_nonneg (digits : Nat) (exponent : Int) : (0 : ℚ) ≤ digits * 10 ^ exponent := by
  positivity

theorem unitsOfRank_zero : unitsOfRank 0 = 0 := rfl

/-- The ends of the doubles: the magnitudes next to the largest one, and where the powers of ten lie
among the powers of two. -/
theorem range_ends :
    (unitsOfRank rankCount = twoTo 1024 * one ∧
      unitsOfRank (rankCount - 1) = (twoTo 1024 - twoTo 971) * one ∧
        unitsOfRank (rankCount - 1) + unitsOfRank rankCount =
          2 * ((twoTo 1024 - twoTo 970) * one)) ∧
      (tenTo 308 < twoTo 1024 - twoTo 970 ∧ twoTo 1024 ≤ tenTo 309) ∧
        202 * tenTo 323 ≤ 100 * one ∧ one ≤ 3 * tenTo 323 := by
  decide +kernel

theorem unitsOfRank_rankCount : unitsOfRank rankCount = twoTo 1024 * one := range_ends.1.1

/-- What is not more than half a unit lies in the cell of zero. -/
theorem cell_zero {units : ℚ} (hnonneg : 0 ≤ units) (hhalf : 2 * units ≤ 1) : Cell 0 units where
  low := by simpa [unitsOfRank_zero] using hnonneg
  high := by simpa [unitsOfRank_zero, show unitsOfRank 1 = 1 by decide] using hhalf
  low_lt h := absurd h (by decide)
  lt_high h := absurd h (by decide)

/-- Powers of ten in units. -/
theorem ten_zpow_mul_one_bounds (K : Int) :
    (202 / 100 * 10 ^ (K + 323) : ℚ) ≤ 10 ^ K * one ∧ (10 ^ K * one : ℚ) ≤ 3 * 10 ^ (K + 323) := by
  have hlow : ((202 * tenTo 323 : ℕ) : ℚ) ≤ (100 * one : ℕ) := Nat.cast_le.2 range_ends.2.2.1
  have hhigh : (one : ℚ) ≤ (3 * tenTo 323 : ℕ) := Nat.cast_le.2 range_ends.2.2.2
  have hpow : (0 : ℚ) < 10 ^ K := by positivity
  rw [Nat.cast_mul, Nat.cast_mul, tenTo_eq, Nat.cast_ofNat, Nat.cast_ofNat] at hlow
  rw [Nat.cast_mul, tenTo_eq, Nat.cast_ofNat] at hhigh
  have hsplit : (10 : ℚ) ^ (K + 323) = 10 ^ K * 10 ^ 323 := by
    rw [zpow_add₀ (by norm_num), ← zpow_natCast, Nat.cast_ofNat]
  rw [hsplit, mul_left_comm, mul_left_comm 3]
  generalize (10 : ℚ) ^ 323 = power at hlow hhigh
  exact ⟨mul_le_mul_of_nonneg_left (by linarith) hpow.le,
    mul_le_mul_of_nonneg_left hhigh hpow.le⟩

/-- A decimal far below the least magnitude is not more than half a unit. -/
theorem two_mul_decimal_le {digits : Nat} {exponent : Int}
    (hsmall : exponent + digits.log2 + 2 ≤ -324) :
    2 * (digits * 10 ^ exponent * one : ℚ) ≤ 1 := by
  have hdigits : (digits : ℚ) ≤ 10 ^ (digits.log2 + 1) :=
    calc (digits : ℚ) ≤ twoTo (digits.log2 + 1) := by exact_mod_cast (lt_twoTo_log2 digits).le
      _ = 2 ^ (digits.log2 + 1) := twoTo_eq _
      _ ≤ 10 ^ (digits.log2 + 1) := pow_le_pow_left₀ (by norm_num) (by norm_num) _
  have hvalue : digits * 10 ^ exponent ≤ (10 : ℚ) ^ (-325 : Int) :=
    calc digits * 10 ^ exponent ≤ (10 : ℚ) ^ ((digits.log2 + 1 : ℕ) : ℤ) * 10 ^ exponent := by
          rw [zpow_natCast]
          exact mul_le_mul_of_nonneg_right hdigits (by positivity)
      _ = 10 ^ ((digits.log2 + 1 : ℕ) + exponent) := (zpow_add₀ (by norm_num) _ _).symm
      _ ≤ 10 ^ (-325 : Int) := zpow_le_zpow_right₀ (by norm_num) (by push_cast; omega)
  have hunits := (mul_le_mul_of_nonneg_right hvalue one_pos'.le).trans
    (ten_zpow_mul_one_bounds (-325)).2
  generalize (one : ℚ) = unit at hunits ⊢
  norm_num at hunits
  linarith

/-- A decimal becomes the magnitude in whose cell it lies. -/
theorem ofDecimal_eq_of_cell (negative : Bool) {digits : Nat} {exponent : Int} {rank : Nat}
    (h : Cell rank (digits * 10 ^ exponent * one)) :
    ofDecimal negative digits exponent = ofRank negative rank := by
  have hone := one_pos'
  rw [ofDecimal]
  split
  · next hdigits =>
    -- zero lies in the cell of rank zero
    rw [hdigits, Nat.cast_zero, zero_mul, zero_mul] at h
    obtain rfl : rank = 0 := h.unique (by exact_mod_cast cell_unitsOfRank 0)
    rfl
  · next hdigits =>
    have hpos : (1 : ℚ) ≤ digits := by exact_mod_cast Nat.one_le_iff_ne_zero.2 hdigits
    split
    · next hlarge =>
      have hbeyond : (unitsOfRank rankCount : ℚ) ≤ digits * 10 ^ exponent * one := by
        rw [unitsOfRank_rankCount, Nat.cast_mul]
        refine mul_le_mul_of_nonneg_right ?_ hone.le
        calc (twoTo 1024 : ℚ) ≤ tenTo 309 := by
              exact_mod_cast range_ends.2.1.2
          _ = 10 ^ ((309 : ℕ) : ℤ) := by rw [tenTo_eq, zpow_natCast]
          _ ≤ 10 ^ exponent := zpow_le_zpow_right₀ (by norm_num) (by omega)
          _ ≤ digits * 10 ^ exponent := le_mul_of_one_le_left (by positivity) hpos
      have hrank := (cell_unitsOfRank rankCount).le_of_le h hbeyond
      rw [ofRank, dif_neg (by omega)]
    · split
      · next hsmall =>
        have hhalf := two_mul_decimal_le (show exponent + digits.log2 + 2 ≤ -324 by omega)
        obtain rfl : rank = 0 := h.unique (cell_zero (mul_nonneg (by positivity) hone.le) hhalf)
        rfl
      · split
        · next hnonneg =>
          obtain ⟨n, rfl⟩ := Int.eq_ofNat_of_zero_le hnonneg
          rw [ofQuotient, nearest, (nearestRank_eq_iff one_pos).2]
          rw [Int.toNat_natCast, Nat.cast_mul, Nat.cast_mul, tenTo_eq, Nat.cast_one, div_one]
          rwa [zpow_natCast] at h
        · next hneg =>
          obtain ⟨n, hn⟩ := Int.eq_ofNat_of_zero_le (show 0 ≤ -exponent by omega)
          obtain rfl : exponent = -n := by omega
          rw [ofQuotient, nearest, (nearestRank_eq_iff (tenTo_pos _)).2]
          rw [neg_neg, Int.toNat_natCast, Nat.cast_mul, tenTo_eq, mul_div_right_comm]
          rwa [zpow_neg, zpow_natCast, ← div_eq_mul_inv] at h

/-! ### The end of the doubles -/

/-- From here on a number rounds to infinity: halfway from the largest double to the next power of
two. -/
def limit : ℚ := (twoTo 1024 - twoTo 970 : ℕ)

theorem limit_le : limit ≤ 10 ^ ((309 : ℕ) : Int) := by
  rw [limit, zpow_natCast, ← tenTo_eq]
  exact Nat.cast_le.2 ((Nat.sub_le _ _).trans range_ends.2.1.2)

theorem unitsOfRank_limit :
    (unitsOfRank (rankCount - 1) + unitsOfRank rankCount : ℚ) = 2 * (limit * one) := by
  rw [limit, ← Nat.cast_add, range_ends.1.2.2, Nat.cast_mul, Nat.cast_mul, Nat.cast_ofNat]

/-- The cells from the limit on have no magnitude. -/
theorem Cell.rankCount_le_iff {rank : Nat} {units : ℚ} (h : Cell rank units) :
    rankCount ≤ rank ↔ limit * one ≤ units := by
  have hlimit := unitsOfRank_limit
  have hmono : ∀ {i j : Nat}, i ≤ j → (unitsOfRank i : ℚ) ≤ unitsOfRank j := fun hij ↦ by
    exact_mod_cast unitsOfRank_strictMono.monotone hij
  constructor
  · intro hle
    have hlow := h.low
    linarith [hmono hle, hmono (Nat.sub_le_sub_right hle 1)]
  · intro hle
    by_contra hlt
    rcases Nat.lt_or_ge rank (rankCount - 1) with hfar | hnear
    · have hstrict : (unitsOfRank rank : ℚ) < unitsOfRank (rankCount - 1) := by
        exact_mod_cast unitsOfRank_strictMono hfar
      linarith [h.high, hmono (show rank + 1 ≤ rankCount by omega)]
    · -- the rank of the largest double is odd, so the midpoint above it is not in its cell
      obtain rfl : rank = rankCount - 1 := by omega
      have hstrict := h.lt_high (by decide)
      rw [show rankCount - 1 + 1 = rankCount from rfl] at hstrict
      linarith

/-- A decimal that is not below the limit becomes infinite. -/
theorem ofDecimal_eq_infinite (negative : Bool) {digits : Nat} {exponent : Int}
    (h : limit ≤ digits * 10 ^ exponent) :
    ofDecimal negative digits exponent = infinite negative := by
  have hone := one_pos'
  obtain ⟨rank, hcell⟩ := exists_cell (mul_nonneg (decimal_nonneg digits exponent) hone.le)
  have hrank := hcell.rankCount_le_iff.2 (mul_le_mul_of_nonneg_right h hone.le)
  rw [ofDecimal_eq_of_cell negative hcell, ofRank, dif_neg (by omega)]

/-- A decimal below the limit becomes the finite double in whose cell it lies. -/
theorem exists_ofDecimal_eq (negative : Bool) {digits : Nat} {exponent : Int}
    (h : digits * 10 ^ exponent < limit) : ∃ rank : Fin rankCount,
      ofDecimal negative digits exponent = finite negative rank ∧
        Cell rank (digits * 10 ^ exponent * one) := by
  have hone := one_pos'
  obtain ⟨rank, hcell⟩ := exists_cell (mul_nonneg (decimal_nonneg digits exponent) hone.le)
  have hrank : rank < rankCount := by
    by_contra hge
    have hle := le_of_mul_le_mul_right (hcell.rankCount_le_iff.1 (by omega)) hone
    exact absurd h (not_lt.2 hle)
  exact ⟨⟨rank, hrank⟩, by rw [ofDecimal_eq_of_cell negative hcell, ofRank, dif_pos hrank], hcell⟩

/-- The whole numbers below the limit are those that become finite. -/
theorem isFinite_ofInt_iff {n : Int} : (ofInt n).isFinite = true ↔ (n.natAbs : ℚ) < limit := by
  have hcell := cell_nearestRank (n.natAbs * one) Nat.one_pos
  rw [Nat.cast_one, div_one, Nat.cast_mul] at hcell
  have hiff := not_congr (hcell.rankCount_le_iff.trans (mul_le_mul_iff_left₀ one_pos'))
  rw [not_le, not_le] at hiff
  rw [← hiff, ofInt, ofQuotient, nearest, ofRank]
  split
  · next hrank => exact ⟨fun _ ↦ hrank, fun _ ↦ rfl⟩
  · next hrank => exact ⟨fun h ↦ absurd h (by simp [isFinite]), fun h ↦ absurd h hrank⟩

/-- A whole number that becomes finite has at most 309 digits. -/
theorem natAbs_lt_tenTo_of_isFinite_ofInt {n : Int} (h : (ofInt n).isFinite = true) :
    n.natAbs < tenTo 309 := by
  have hlimit : n.natAbs < twoTo 1024 - twoTo 970 := Nat.cast_lt.1 (isFinite_ofInt_iff.1 h)
  exact (hlimit.trans_le (Nat.sub_le _ _)).trans_le range_ends.2.1.2

/-! ### Rounding to places -/

/-- A magnitude rounded to places, before it becomes a double again. -/
def roundedAt (rank : Nat) (places : Int) : ℚ := stepsAtPlaces rank places * 10 ^ (-places)

/-- A distance in steps, and as it is. -/
theorem abs_sub_div_mul {step : ℚ} (hstep : 0 < step) (n value : ℚ) :
    |n - value / step| * step = |n * step - value| := by
  rw [← abs_of_pos hstep, ← abs_mul, abs_of_pos hstep, sub_mul, div_mul_cancel₀ _ hstep.ne']

/-- The whole number that a number is rounded to: it is at most one half away, and less if it is
odd. -/
def IsRounded (n : Nat) (value : ℚ) : Prop :=
  |(n : ℚ) - value| ≤ 1 / 2 ∧ (n % 2 = 1 → |(n : ℚ) - value| < 1 / 2)

theorem isRounded_of_lt {n : Nat} {value : ℚ} (h : |(n : ℚ) - value| < 1 / 2) :
    IsRounded n value :=
  ⟨h.le, fun _ ↦ h⟩

theorem isRounded_div_of_lt {n : Nat} {value step : ℚ} (hstep : 0 < step)
    (h : |n * step - value| < step / 2) : IsRounded n (value / step) := by
  refine isRounded_of_lt ?_
  rw [← mul_lt_mul_iff_left₀ hstep, abs_sub_div_mul hstep]
  linarith

/-- A number of steps is at most half a step away. -/
theorem IsRounded.abs_mul_sub_le {n : Nat} {value step : ℚ} (hstep : 0 < step)
    (h : IsRounded n (value / step)) : |n * step - value| ≤ step / 2 := by
  have hclose := mul_le_mul_of_nonneg_right h.1 hstep.le
  rw [abs_sub_div_mul hstep] at hclose
  linarith

theorem IsRounded.le {n m : Nat} {value : ℚ} (h : IsRounded n value) (hle : value ≤ m) : n ≤ m := by
  have hclose := (abs_le.1 h.1).2
  have hlt : (n : ℚ) < (m + 1 : ℕ) := by
    push_cast
    linarith
  exact Nat.lt_succ_iff.1 (Nat.cast_lt.1 hlt)

theorem IsRounded.ge {n m : Nat} {value : ℚ} (h : IsRounded n value) (hle : m ≤ value) : m ≤ n := by
  have hclose := (abs_le.1 h.1).1
  have hlt : (m : ℚ) < (n + 1 : ℕ) := by
    push_cast
    linarith
  exact Nat.lt_succ_iff.1 (Nat.cast_lt.1 hlt)

/-- A number is rounded to one whole number. -/
theorem IsRounded.unique {n m : Nat} {value : ℚ} (h : IsRounded n value) (h' : IsRounded m value) :
    n = m := by
  -- of two neighbours one is odd, and so less than half a step away
  have hnot : ∀ {i j : Nat}, IsRounded i value → IsRounded j value → ¬i < j := by
    intro i j hi hj hlt
    have hij : (i + 1 : ℕ) ≤ (j : ℚ) := by exact_mod_cast hlt
    push_cast at hij
    have hupper := (abs_le.1 hj.1).2
    have hlower := (abs_le.1 hi.1).1
    have hnext : j = i + 1 := by
      have hle : (j : ℚ) ≤ (i + 1 : ℕ) := by
        push_cast
        linarith
      exact Nat.le_antisymm (Nat.cast_le.1 hle) hlt
    rcases Nat.mod_two_eq_zero_or_one i with heven | hodd
    · linarith [(abs_lt.1 (hj.2 (by omega))).2]
    · linarith [(abs_lt.1 (hi.2 hodd)).1]
  exact Nat.le_antisymm (Nat.not_lt.1 (hnot h' h)) (Nat.not_lt.1 (hnot h h'))

/-- No whole number is nearer than the one that is rounded to. -/
theorem IsRounded.nearest {n : Nat} {value : ℚ} (h : IsRounded n value) (m : Nat) :
    |(n : ℚ) - value| ≤ |(m : ℚ) - value| := by
  rcases eq_or_ne n m with rfl | hne
  · exact le_rfl
  · have hapart : (1 : ℚ) ≤ |(n : ℚ) - m| := by
      have hint : (1 : Int) ≤ |(n : Int) - m| :=
        Int.one_le_abs (sub_ne_zero.2 (by exact_mod_cast hne))
      exact_mod_cast hint
    have htriangle := abs_sub_le (n : ℚ) value m
    rw [abs_sub_comm value] at htriangle
    linarith [h.1]

/-- What is not more than an even number is rounded to it just if it is at most half away. -/
theorem IsRounded.eq_iff {n m : Nat} {value : ℚ} (h : IsRounded n value) (heven : m % 2 = 0)
    (hle : value ≤ m) : n = m ↔ (m : ℚ) - 1 / 2 ≤ value := by
  constructor
  · rintro rfl
    linarith [(abs_le.1 h.1).2]
  · intro hhalf
    refine h.unique ⟨?_, fun hodd ↦ absurd hodd (by omega)⟩
    rw [abs_of_nonneg (by linarith)]
    linarith

theorem exists_isRounded {value : ℚ} (h : 0 ≤ value) : ∃ n, IsRounded n value := by
  have hrounded := abs_roundHalfEven_sub_le value.num.toNat value.pos
  have hnum : ((value.num.toNat : ℕ) : ℚ) = value.num := by
    exact_mod_cast Int.toNat_of_nonneg (Rat.num_nonneg.2 h)
  rw [hnum, Rat.num_div_den] at hrounded
  exact ⟨_, hrounded⟩

/-- The number of steps is the magnitude in steps, rounded. -/
theorem isRounded_stepsAtPlaces (rank : Nat) (places : Int) :
    IsRounded (stepsAtPlaces rank places) (unitsOfRank rank / one / 10 ^ (-places)) := by
  obtain ⟨num, den, hden, hsteps, hvalue⟩ : ∃ num den : ℕ, 0 < den ∧
      stepsAtPlaces rank places = roundHalfEven num den ∧
        (unitsOfRank rank / one / 10 ^ (-places) : ℚ) = num / den := by
    rw [stepsAtPlaces]
    split
    · next hnonneg =>
      obtain ⟨n, rfl⟩ := Int.eq_ofNat_of_zero_le hnonneg
      refine ⟨_, one, twoTo_pos 1074, rfl, ?_⟩
      rw [Int.toNat_natCast, Nat.cast_mul, tenTo_eq, zpow_neg, zpow_natCast, div_inv_eq_mul,
        div_mul_eq_mul_div]
    · next hneg =>
      obtain ⟨n, hn⟩ := Int.eq_ofNat_of_zero_le (show 0 ≤ -places by omega)
      refine ⟨_, one * tenTo (-places).toNat, Nat.mul_pos (twoTo_pos 1074) (tenTo_pos _), rfl, ?_⟩
      rw [hn, Int.toNat_natCast, Nat.cast_mul, tenTo_eq, zpow_natCast, div_div]
  rw [hsteps, hvalue]
  exact abs_roundHalfEven_sub_le num hden

/-- Rounding to places moves a number by half a step at most. -/
theorem abs_roundedAt_sub_le (rank : Nat) (places : Int) :
    |roundedAt rank places - unitsOfRank rank / one| ≤ 10 ^ (-places) / 2 :=
  (isRounded_stepsAtPlaces rank places).abs_mul_sub_le (by positivity)

/-- Rounding to places overflows where the rounded number is not below the limit. -/
theorem roundPlaces_overflow (negative : Bool) {rank : Fin rankCount} {places : Int}
    (hlow : -308 ≤ places) (hhigh : places ≤ 323) (h : limit ≤ roundedAt rank places) :
    (finite negative rank).roundPlaces places = .error .overflow := by
  rw [roundPlaces, if_neg (by omega), if_neg (by omega), ofDecimal_eq_infinite negative h]

/-- Below the limit rounding to places gives the double nearest to the rounded number. -/
theorem exists_roundPlaces_eq (negative : Bool) {rank : Fin rankCount} {places : Int}
    (hlow : -308 ≤ places) (hhigh : places ≤ 323) (h : roundedAt rank places < limit) :
    ∃ rounded : Fin rankCount, (finite negative rank).roundPlaces places =
      .ok (finite negative rounded) ∧ Cell rounded (roundedAt rank places * one) := by
  obtain ⟨rounded, heq, hcell⟩ := exists_ofDecimal_eq negative h
  refine ⟨rounded, ?_, hcell⟩
  rw [roundPlaces, if_neg (by omega), if_neg (by omega), heq]

end Metrology.Double
