import Mathlib.Tactic.GCongr
import Metrology.Double.Logarithm
import Metrology.Proofs.Double.Arithmetic

/-!
# The size of decimal exponents

A decimal exponent is the floor of a logarithm that is computed in doubles. The logarithm is the
count of binades times `log₁₀ 2`, plus the logarithm of a quotient near one, and each of its steps
keeps a double near what it stands for (`Near.add`, `Near.mul`), so the sum is near the exact one
(`logSum_near`). The natural logarithm of the quotient is estimated by the sum of a geometric series
(`natAbs_lnFixed_le`), and from below by its first term (`le_lnFixed`).

The estimate is within `3 / 5` (`logTen_near`). That is not enough to tell the leading digit next to
a power of ten, and enough where only the size of the exponent matters: it exists
(`exists_decimalExponent_eq`), lies between `-324` and `308` (`decimalExponent_bounds`), and is the
lowest one for the two least magnitudes alone (`decimalExponent_lowest_iff`).
-/

namespace Metrology.Double

/-! ### The natural logarithm -/

theorem natAbs_ediv_le {n : Int} {d k : Nat} (hd : 0 < d) (h : n.natAbs ≤ k * d) :
    (n / (d : Int)).natAbs ≤ k := by
  have hpos : (0 : Int) < d := by exact_mod_cast hd
  have hupper : n / (d : Int) ≤ k := by
    refine Int.ediv_le_of_le_mul hpos ?_
    have hle : ((k * d : Nat) : Int) = (k : Int) * d := by push_cast; rfl
    omega
  have hlower : -(k : Int) ≤ n / (d : Int) := by
    refine Int.le_ediv_of_mul_le hpos ?_
    have hle : ((k * d : Nat) : Int) = (k : Int) * d := by push_cast; rfl
    have hneg : -(k : Int) * d = -((k : Int) * d) := by ring
    omega
  omega

/-- The terms of the series become at most a quarter as large from one to the next, apart from
what rounding adds. -/
theorem natAbs_oddSeries_le {square : Int} (hsquare : square.natAbs ≤ twoTo 198) (terms : Nat) :
    ∀ (odd : Nat) (power : Int) (bound : Nat), 0 < odd → power.natAbs ≤ bound →
      (oddSeries square terms odd power).natAbs ≤ 2 * bound + 2 * terms := by
  induction terms with
  | zero => intro odd power bound _ _; exact Nat.zero_le _
  | succ terms ih =>
    intro odd power bound hodd hpower
    have hterm : (power / (odd : Int)).natAbs ≤ bound :=
      natAbs_ediv_le hodd (hpower.trans (Nat.le_mul_of_pos_right _ hodd))
    have hnext : (power * square / (twoTo seriesPlaces : Int)).natAbs ≤ bound / 4 + 1 := by
      refine natAbs_ediv_le (twoTo_pos _) ?_
      rw [Int.natAbs_mul]
      calc power.natAbs * square.natAbs ≤ bound * twoTo 198 := Nat.mul_le_mul hpower hsquare
        _ ≤ (bound / 4 + 1) * 4 * twoTo 198 := Nat.mul_le_mul_right _ (by omega)
        _ = (bound / 4 + 1) * twoTo seriesPlaces := by rw [Nat.mul_assoc]; rfl
    have hrest := ih (odd + 2) _ _ (by omega) hnext
    rw [oddSeries]
    have hsum := Int.natAbs_add_le (power / (odd : Int))
      (oddSeries square terms (odd + 2) (power * square / (twoTo seriesPlaces : Int)))
    omega

/-- The series has no negative terms where its first one is none. -/
theorem oddSeries_nonneg {square : Int} (hsquare : 0 ≤ square) (terms : Nat) :
    ∀ (odd : Nat) (power : Int), 0 ≤ power → 0 ≤ oddSeries square terms odd power := by
  induction terms with
  | zero => intro odd power _; exact le_rfl
  | succ terms ih =>
    intro odd power hpower
    rw [oddSeries]
    exact add_nonneg (Int.ediv_nonneg hpower (Int.natCast_nonneg _))
      (ih _ _ (Int.ediv_nonneg (mul_nonneg hpower hsquare) (Int.natCast_nonneg _)))

/-- The first term of the series, in fixed point. -/
def firstTerm (num den : Nat) : Int := ((num : Int) - den) * twoTo seriesPlaces / (num + den : Nat)

theorem lnFixed_eq (num den : Nat) :
    lnFixed num den =
      2 * oddSeries (firstTerm num den * firstTerm num den / (twoTo seriesPlaces : Int)) 64 1
        (firstTerm num den) :=
  rfl

/-- The logarithm of a quotient between one half and two is at most four thirds in fixed point. -/
theorem natAbs_lnFixed_le {num den : Nat} (hpos : 0 < num + den) (hnum : num ≤ 2 * den)
    (hden : den ≤ 2 * num) : 3 * (lnFixed num den).natAbs ≤ 4 * twoTo seriesPlaces + 2000 := by
  let third := twoTo seriesPlaces / 3 + 1
  have hterm : (firstTerm num den).natAbs ≤ third := by
    refine natAbs_ediv_le hpos ?_
    rw [Int.natAbs_mul]
    have hthird : ((num : Int) - den).natAbs * 3 ≤ num + den := by omega
    calc ((num : Int) - den).natAbs * twoTo seriesPlaces
        ≤ ((num : Int) - den).natAbs * (3 * third) := Nat.mul_le_mul_left _ (by omega)
      _ = ((num : Int) - den).natAbs * 3 * third := (Nat.mul_assoc _ _ _).symm
      _ ≤ (num + den) * third := Nat.mul_le_mul_right _ hthird
      _ = third * (num + den) := Nat.mul_comm _ _
  have hsquare : (firstTerm num den * firstTerm num den / (twoTo seriesPlaces : Int)).natAbs ≤
      twoTo 198 := by
    refine natAbs_ediv_le (twoTo_pos _) ?_
    rw [Int.natAbs_mul]
    exact (Nat.mul_le_mul hterm hterm).trans (by decide)
  have hsum := natAbs_oddSeries_le hsquare 64 1 _ _ one_pos hterm
  rw [lnFixed_eq, Int.natAbs_mul, show Int.natAbs 2 = 2 from rfl]
  omega

/-- The logarithm of a quotient that is not below one is at least twice the first term. -/
theorem le_lnFixed {num den : Nat} (hle : den ≤ num) :
    2 * firstTerm num den ≤ lnFixed num den := by
  have hterm : 0 ≤ firstTerm num den :=
    Int.ediv_nonneg (mul_nonneg (by omega) (Int.natCast_nonneg _)) (Int.natCast_nonneg _)
  have hsquare : 0 ≤ firstTerm num den * firstTerm num den / (twoTo seriesPlaces : Int) :=
    Int.ediv_nonneg (mul_nonneg hterm hterm) (Int.natCast_nonneg _)
  rw [lnFixed_eq, oddSeries, Nat.cast_one, Int.ediv_one]
  have hrest := oddSeries_nonneg hsquare 63 (1 + 2)
    (firstTerm num den * (firstTerm num den * firstTerm num den / (twoTo seriesPlaces : Int)) /
      (twoTo seriesPlaces : Int))
    (Int.ediv_nonneg (mul_nonneg hterm hsquare) (Int.natCast_nonneg _))
  omega

/-- The logarithm in fixed point as a number. -/
def lnValue (num den : Nat) : ℚ := lnFixed num den / twoTo seriesPlaces

theorem abs_lnValue_le {num den : Nat} (hpos : 0 < num + den) (hnum : num ≤ 2 * den)
    (hden : den ≤ 2 * num) : |lnValue num den| ≤ 1334 / 1000 := by
  have hplaces : (0 : ℚ) < twoTo seriesPlaces := by exact_mod_cast twoTo_pos _
  have hfixed : (3 * |(lnFixed num den : ℚ)|) ≤ 4 * twoTo seriesPlaces + 2000 := by
    rw [← Int.cast_abs, ← Nat.cast_natAbs]
    exact_mod_cast natAbs_lnFixed_le hpos hnum hden
  have hlarge : (2 : ℚ) ^ 30 ≤ twoTo seriesPlaces := by
    rw [← twoTo_eq]
    exact_mod_cast (twoTo_le (by decide) : twoTo 30 ≤ twoTo seriesPlaces)
  rw [lnValue, abs_div, abs_of_pos hplaces, div_le_iff₀ hplaces]
  linarith

/-! ### Estimates -/

theorem one_div_one_le : (1 : ℚ) / one ≤ 1 / 2 ^ 40 := by
  rw [← twoTo_eq]
  exact one_div_le_one_div_of_le (by exact_mod_cast twoTo_pos 40)
    (by exact_mod_cast (twoTo_le (by decide) : twoTo 40 ≤ twoTo 1074))

variable {x y : Double}

theorem lt_twoTo_of_le {v : ℚ} (h : v ≤ 2 ^ 12) : v < twoTo 1023 :=
  lt_twoTo_of_le_pow h (by decide)

/-- A finite double within a gap of a number. -/
structure Near (x : Double) (v gap : ℚ) : Prop where
  isFinite : x.isFinite = true
  close : |x.toRat - v| ≤ gap

/-- Numbers of middling size are approximated closely. -/
theorem Approximates.near {v : ℚ} (h : x.Approximates v) (hv : |v| ≤ 2 ^ 12) :
    x.Near v (1 / 2 ^ 39) := by
  refine ⟨h.isFinite, ?_⟩
  calc |x.toRat - v| ≤ |v| / 2 ^ 52 + 1 / one := h.abs_sub_le
    _ ≤ 2 ^ 12 / 2 ^ 52 + 1 / 2 ^ 40 := add_le_add (by gcongr) one_div_one_le
    _ = 1 / 2 ^ 39 := by norm_num

variable {a b A B ε δ gap : ℚ}

theorem Near.abs_le (h : x.Near a ε) (ha : |a| ≤ A) : |x.toRat| ≤ A + ε := by
  have htriangle := abs_add_le a (x.toRat - a)
  rw [add_sub_cancel] at htriangle
  linarith [h.close]

theorem Near.add (hx : x.Near a ε) (hy : y.Near b δ) (ha : |a| ≤ A) (hb : |b| ≤ B)
    (hsmall : A + ε + (B + δ) ≤ 2 ^ 12) (hgap : ε + δ + 1 / 2 ^ 39 ≤ gap) :
    (x + y).Near (a + b) gap := by
  have hsum : |x.toRat + y.toRat| ≤ 2 ^ 12 :=
    (abs_add_le _ _).trans ((add_le_add (hx.abs_le ha) (hy.abs_le hb)).trans hsmall)
  have hrounded :=
    (roundsTo_add hx.isFinite hy.isFinite (lt_twoTo_of_le hsum)).approximates.near hsum
  refine ⟨hrounded.isFinite, ?_⟩
  have hexact : |x.toRat + y.toRat - (a + b)| ≤ ε + δ := by
    rw [add_sub_add_comm]
    exact (abs_add_le _ _).trans (add_le_add hx.close hy.close)
  have htriangle := abs_sub_le (x + y).toRat (x.toRat + y.toRat) (a + b)
  linarith [hrounded.close]

theorem Near.mul (hx : x.Near a ε) (hy : y.Near b δ) (ha : |a| ≤ A) (hb : |b| ≤ B)
    (hsmall : (A + ε) * (B + δ) ≤ 2 ^ 12) (hgap : ε * (B + δ) + A * δ + 1 / 2 ^ 39 ≤ gap) :
    (x * y).Near (a * b) gap := by
  have hA : 0 ≤ A := (abs_nonneg a).trans ha
  have hε : 0 ≤ ε := (abs_nonneg _).trans hx.close
  have hδ : 0 ≤ δ := (abs_nonneg _).trans hy.close
  have hproduct : |x.toRat * y.toRat| ≤ 2 ^ 12 := by
    rw [abs_mul]
    exact (mul_le_mul (hx.abs_le ha) (hy.abs_le hb) (abs_nonneg _) (by linarith)).trans hsmall
  have hrounded :=
    (roundsTo_mul hx.isFinite hy.isFinite (lt_twoTo_of_le hproduct)).approximates.near hproduct
  refine ⟨hrounded.isFinite, ?_⟩
  have hexact : |x.toRat * y.toRat - a * b| ≤ ε * (B + δ) + A * δ := by
    rw [show x.toRat * y.toRat - a * b = (x.toRat - a) * y.toRat + a * (y.toRat - b) by ring]
    refine (abs_add_le _ _).trans ?_
    rw [abs_mul, abs_mul]
    exact add_le_add (mul_le_mul hx.close (hy.abs_le hb) (abs_nonneg _) hε)
      (mul_le_mul ha hy.close (abs_nonneg _) hA)
  have htriangle := abs_sub_le (x * y).toRat (x.toRat * y.toRat) (a * b)
  linarith [hrounded.close]

/-! ### The common logarithm -/

/-- The constants of a logarithm. -/
theorem constants_near :
    logTwoLow.Near 0 (1 / 10 ^ 9) ∧ recipLnTen.Near (43429 / 100000) (1 / 10 ^ 5) ∧
      logTwoHigh.Near (30103 / 100000) (1 / 10 ^ 8) := by
  have hconstants : (logTwoLow.isFinite = true ∧ |logTwoLow.toRat - 0| ≤ 1 / 10 ^ 9) ∧
      (recipLnTen.isFinite = true ∧ |recipLnTen.toRat - 43429 / 100000| ≤ 1 / 10 ^ 5) ∧
      logTwoHigh.isFinite = true ∧ |logTwoHigh.toRat - 30103 / 100000| ≤ 1 / 10 ^ 8 := by
    decide +kernel
  obtain ⟨⟨hlow, hlow'⟩, ⟨hrecip, hrecip'⟩, hhigh, hhigh'⟩ := hconstants
  exact ⟨⟨hlow, hlow'⟩, ⟨hrecip, hrecip'⟩, hhigh, hhigh'⟩

/-- The natural logarithm is rounded once. -/
theorem roundsTo_ln {num den : Nat} (hpos : 0 < num + den) (hnum : num ≤ 2 * den)
    (hden : den ≤ 2 * num) : (ln num den).RoundsTo (lnValue num den) := by
  have hbound := abs_lnValue_le hpos hnum hden
  have hvalue : lnValue num den =
      sign (lnFixed num den < 0) * ((lnFixed num den).natAbs / twoTo seriesPlaces) := by
    rw [lnValue, ← mul_div_assoc, ← eq_sign_mul_natAbs]
  have hmagnitude : ((lnFixed num den).natAbs : ℚ) / twoTo seriesPlaces = |lnValue num den| := by
    rw [hvalue, abs_mul, abs_sign, one_mul,
      abs_of_nonneg (div_nonneg (Nat.cast_nonneg _) (Nat.cast_nonneg _))]
  have hrounded := roundsTo_ofQuotient (lnFixed num den < 0) (twoTo_pos seriesPlaces)
    (hmagnitude.trans_lt (lt_twoTo_of_le (hbound.trans (by norm_num))))
  rwa [← hvalue] at hrounded

theorem ln_near {num den : Nat} (hpos : 0 < num + den) (hnum : num ≤ 2 * den)
    (hden : den ≤ 2 * num) : (ln num den).Near (lnValue num den) (1 / 2 ^ 39) :=
  (roundsTo_ln hpos hnum hden).approximates.near
    ((abs_lnValue_le hpos hnum hden).trans (by norm_num))

/-- The sum that a logarithm is. -/
def logSum (shift : Int) (num den : Nat) : Double :=
  ofInt shift * logTwoLow + recipLnTen * ln num den + ofInt shift * logTwoHigh

theorem logSum_near {shift : Int} (hshift : |shift| ≤ 1074) {num den : Nat} (hpos : 0 < num + den)
    (hnum : num ≤ 2 * den) (hden : den ≤ 2 * num) :
    (logSum shift num den).Near
      (shift * (30103 / 100000) + 43429 / 100000 * lnValue num den) (1 / 1000) := by
  obtain ⟨hlow, hrecip, hhigh⟩ := constants_near
  have hshift' : |(shift : ℚ)| ≤ 1074 := by
    rw [← Int.cast_abs]
    exact_mod_cast hshift
  have hcount : (ofInt shift).Near shift (1 / 2 ^ 39) :=
    (roundsTo_ofInt (lt_twoTo_of_le (hshift'.trans (by norm_num)))).approximates.near
      (hshift'.trans (by norm_num))
  have hvalue := abs_lnValue_le hpos hnum hden
  have hproduct : |43429 / 100000 * lnValue num den| ≤ 1 := by
    rw [abs_mul, abs_of_nonneg (by norm_num)]
    linarith
  have hlarge : |shift * (30103 / 100000 : ℚ)| ≤ 400 := by
    rw [abs_mul, abs_of_nonneg (show (0 : ℚ) ≤ 30103 / 100000 by norm_num)]
    linarith
  have hfirst : (ofInt shift * logTwoLow).Near (shift * 0) (1 / 10 ^ 5) :=
    hcount.mul hlow hshift' abs_zero.le (by norm_num) (by norm_num)
  have hsecond : (recipLnTen * ln num den).Near (43429 / 100000 * lnValue num den) (2 / 10 ^ 5) :=
    hrecip.mul (ln_near hpos hnum hden) (A := 1) (by norm_num [abs_le]) hvalue (by norm_num)
      (by norm_num)
  have hthird : (ofInt shift * logTwoHigh).Near (shift * (30103 / 100000)) (2 / 10 ^ 5) :=
    hcount.mul hhigh (B := 1) hshift' (by norm_num [abs_le]) (by norm_num) (by norm_num)
  rw [mul_zero] at hfirst
  have hsmall : (ofInt shift * logTwoLow + recipLnTen * ln num den).Near
      (0 + 43429 / 100000 * lnValue num den) (4 / 10 ^ 5) :=
    hfirst.add hsecond abs_zero.le hproduct (by norm_num) (by norm_num)
  rw [zero_add] at hsmall
  rw [add_comm (shift * (30103 / 100000) : ℚ)]
  exact hsmall.add hthird hproduct hlarge (by norm_num) (by norm_num)

/-- The place of the highest bit of a magnitude, as a power of two. -/
def binade (rank : Nat) : Int := (unitsOfRank rank).log2 - 1074

/-- The count of binades in a logarithm. -/
def binadeShift (rank : Nat) : Int := if binade rank < 0 then binade rank + 1 else binade rank

/-- A magnitude over the power of two of its count of binades, as a quotient. -/
def nearOne (rank : Nat) : Nat × Nat :=
  if 0 ≤ binadeShift rank then (unitsOfRank rank, one * twoTo (binadeShift rank).toNat)
  else (unitsOfRank rank * twoTo (-binadeShift rank).toNat, one)

section LogTen

variable (negative : Bool) {rank : Fin rankCount}

theorem logTen_eq (hrank : rank.val ≠ 0) : (finite negative rank).logTen =
    logSum (binadeShift rank) (nearOne rank).1 (nearOne rank).2 := by
  rw [logTen, if_neg (unitsOfRank_pos hrank).ne']
  rfl

/-- The quotient is between one and two, or from one half to one for numbers below one. -/
theorem nearOne_bounds {rank : Nat} (hrank : rank ≠ 0) :
    0 < (nearOne rank).2 ∧
      if binade rank < 0 then (nearOne rank).1 ≤ (nearOne rank).2 ∧
        (nearOne rank).2 ≤ 2 * (nearOne rank).1
      else (nearOne rank).2 ≤ (nearOne rank).1 ∧ (nearOne rank).1 ≤ 2 * (nearOne rank).2 := by
  have hunits := (unitsOfRank_pos hrank).ne'
  have hlow := twoTo_log2_le hunits
  have hhigh := lt_twoTo_log2 (unitsOfRank rank)
  rw [Nat.add_comm, twoTo_add, show twoTo 1 = 2 from rfl] at hhigh
  rw [nearOne, binadeShift, binade]
  generalize unitsOfRank rank = units at *
  split
  · next hneg =>
    obtain ⟨n, hn⟩ : ∃ n, n = 1073 - units.log2 := ⟨_, rfl⟩
    have hone : one = 2 * (twoTo units.log2 * twoTo n) := by
      rw [one, ← twoTo_add, show 1074 = 1 + (units.log2 + n) by omega, twoTo_add,
        show twoTo 1 = 2 from rfl]
    have hlow' := Nat.mul_le_mul_right (twoTo n) hlow
    have hhigh' := Nat.mul_le_mul_right (twoTo n) hhigh.le
    rw [Nat.mul_assoc] at hhigh'
    have hpos := Nat.mul_pos (twoTo_pos units.log2) (twoTo_pos n)
    rw [hone]
    split
    · next hzero =>
      have hnone : ((units.log2 : Int) - 1074 + 1).toNat = 0 := by omega
      have hnone' : n = 0 := by omega
      rw [hnone, show twoTo 0 = 1 from rfl, Nat.mul_one]
      rw [hnone', show twoTo 0 = 1 from rfl] at *
      dsimp only
      omega
    · rw [show (-((units.log2 : Int) - 1074 + 1)).toNat = n by omega]
      dsimp only
      omega
  · next hnonneg =>
    have hden : one * twoTo ((units.log2 : Int) - 1074).toNat = twoTo units.log2 := by
      rw [one, ← twoTo_add]
      congr 1
      omega
    rw [if_pos (by omega), hden]
    exact ⟨twoTo_pos _, hlow, hhigh.le⟩

theorem le_log2 {n k : Nat} (h : twoTo k ≤ n) : k ≤ n.log2 := by
  by_contra hlt
  have hpower := twoTo_le (show n.log2 + 1 ≤ k by omega)
  exact absurd (lt_twoTo_log2 n) (by omega)

theorem binade_bounds (rank : Fin rankCount) : -1074 ≤ binade rank ∧ binade rank ≤ 1023 := by
  rw [binade]
  refine ⟨by omega, ?_⟩
  rcases Nat.eq_zero_or_pos (unitsOfRank rank) with hzero | hpos
  · rw [hzero, Nat.log2_zero]
    decide
  · have hlog := log2_lt hpos.ne' (unitsOfRank_lt rank)
    omega

theorem logTen_near_sum (hrank : rank.val ≠ 0) : (finite negative rank).logTen.Near
    (binadeShift rank * (30103 / 100000) +
      43429 / 100000 * lnValue (nearOne rank).1 (nearOne rank).2) (1 / 1000) := by
  obtain ⟨hpos, hbounds⟩ := nearOne_bounds hrank
  obtain ⟨hlow, hhigh⟩ := binade_bounds rank
  have hshift : |binadeShift rank| ≤ 1074 := by
    rw [abs_le, binadeShift]
    split <;> omega
  have hquotient : (nearOne rank).1 ≤ 2 * (nearOne rank).2 ∧
      (nearOne rank).2 ≤ 2 * (nearOne rank).1 := by
    split at hbounds <;> omega
  rw [logTen_eq negative hrank]
  exact logSum_near hshift (Nat.add_pos_right _ hpos) hquotient.1 hquotient.2

/-- A common logarithm is about the count of binades times `log₁₀ 2`. -/
theorem logTen_near (hrank : rank.val ≠ 0) : (finite negative rank).logTen.Near
    (binadeShift rank * (30103 / 100000)) (59 / 100) := by
  obtain ⟨hpos, hbounds⟩ := nearOne_bounds hrank
  have hvalue : |lnValue (nearOne rank).1 (nearOne rank).2| ≤ 1334 / 1000 := by
    refine abs_lnValue_le (Nat.add_pos_right _ hpos) ?_ ?_ <;> split at hbounds <;> omega
  obtain ⟨hfinite, hclose⟩ := logTen_near_sum negative hrank
  refine ⟨hfinite, ?_⟩
  rw [abs_le] at hvalue hclose ⊢
  constructor <;> linarith

end LogTen

/-- The logarithm of a quotient that is well above one. -/
theorem third_le_lnValue {num den : Nat} (h : 7 * den ≤ 5 * num) (hpos : 0 < num) :
    333 / 1000 ≤ lnValue num den := by
  have hplaces : (6000 : ℚ) ≤ twoTo seriesPlaces := by
    exact_mod_cast (by decide : 6000 ≤ twoTo seriesPlaces)
  have hterm : ((twoTo seriesPlaces / 6 : ℕ) : Int) ≤ firstTerm num den := by
    refine Int.le_ediv_of_mul_le (by omega) ?_
    have hsixth : twoTo seriesPlaces / 6 * 6 ≤ twoTo seriesPlaces := Nat.div_mul_le_self _ _
    calc ((twoTo seriesPlaces / 6 : ℕ) : Int) * (num + den : ℕ)
        ≤ (twoTo seriesPlaces / 6 : ℕ) * (6 * (num - den)) :=
          mul_le_mul_of_nonneg_left (by omega) (Int.natCast_nonneg _)
      _ = (num - den) * (twoTo seriesPlaces / 6 * 6 : ℕ) := by push_cast; ring
      _ ≤ (num - den) * twoTo seriesPlaces :=
          mul_le_mul_of_nonneg_left (by exact_mod_cast hsixth) (by omega)
  have hln := le_lnFixed (show den ≤ num by omega)
  have hfixed : ((2 * (twoTo seriesPlaces / 6) : ℕ) : Int) ≤ lnFixed num den := by
    rw [Nat.cast_mul]
    omega
  have hfixed' := Int.cast_le (R := ℚ) |>.2 hfixed
  rw [Int.cast_natCast] at hfixed'
  have hfloor : (twoTo seriesPlaces : ℚ) ≤ 3 * (2 * (twoTo seriesPlaces / 6) : ℕ) + 6 := by
    exact_mod_cast (by omega :
      twoTo seriesPlaces ≤ 3 * (2 * (twoTo seriesPlaces / 6)) + 6)
  rw [lnValue, le_div_iff₀ (by linarith)]
  linarith

/-- At the upper end of the doubles the leading digit counts. -/
theorem le_logTen (negative : Bool) {rank : Fin rankCount}
    (hrank : 23 * (twoTo 1019 * one) ≤ unitsOfRank rank) :
    308 ≤ (finite negative rank).logTen.toRat := by
  have hunit : 0 < twoTo 1019 * one := Nat.mul_pos (twoTo_pos _) (twoTo_pos _)
  have hne : rank.val ≠ 0 := by
    intro h
    rw [h, unitsOfRank_zero] at hrank
    omega
  have htop : one * twoTo 1023 = 16 * (twoTo 1019 * one) := by
    rw [show 1023 = 4 + 1019 from rfl, twoTo_add, show twoTo 4 = 16 from rfl, Nat.mul_comm one,
      Nat.mul_assoc]
  have hbinade : binade rank = 1023 := by
    refine le_antisymm (binade_bounds rank).2 ?_
    have hlog : 1074 + 1023 ≤ (unitsOfRank rank).log2 := by
      refine le_log2 ?_
      rw [twoTo_add, ← one, htop]
      omega
    rw [binade]
    omega
  have hshift : binadeShift rank = 1023 := by rw [binadeShift, hbinade]; rfl
  have hclose := (abs_le.1 (logTen_near_sum negative hne).close).1
  have hnear : nearOne rank = (unitsOfRank rank, one * twoTo 1023) := by
    rw [nearOne, hshift, if_pos (by decide), show (1023 : Int).toNat = 1023 from rfl]
  rw [hnear, hshift] at hclose
  have hvalue := third_le_lnValue
    (show 7 * (one * twoTo 1023) ≤ 5 * unitsOfRank rank by omega) (by omega)
  push_cast at hclose
  linarith

/-! ### Decimal exponents -/

section DecimalExponent

variable (negative : Bool) {rank : Fin rankCount}

theorem decimalExponent_eq (hrank : rank.val ≠ 0) : (finite negative rank).decimalExponent =
    .ok ⌊(finite negative rank).logTen.toRat⌋ := by
  rw [decimalExponent, if_neg (by simpa [isZero] using hrank),
    floor_eq (logTen_near negative hrank).isFinite]

/-- The decimal exponent of a nonzero number exists, and it is about the count of binades times
`log₁₀ 2`. -/
theorem exists_decimalExponent_eq (hrank : rank.val ≠ 0) :
    ∃ exponent, (finite negative rank).decimalExponent = .ok exponent ∧
      30103 * binadeShift rank < 100000 * exponent + 159000 ∧
      100000 * exponent ≤ 30103 * binadeShift rank + 59000 := by
  have hclose := abs_le.1 (logTen_near negative hrank).close
  have hfloor := Int.floor_le (finite negative rank).logTen.toRat
  have hbelow := Int.lt_floor_add_one (finite negative rank).logTen.toRat
  refine ⟨_, decimalExponent_eq negative hrank, ?_, ?_⟩
  · have hlow : (30103 * binadeShift rank : ℚ) <
        100000 * ⌊(finite negative rank).logTen.toRat⌋ + 159000 := by linarith
    exact_mod_cast hlow
  · have hhigh : (100000 * ⌊(finite negative rank).logTen.toRat⌋ : ℚ) ≤
        30103 * binadeShift rank + 59000 := by linarith
    exact_mod_cast hhigh

theorem binadeShift_bounds (rank : Fin rankCount) :
    -1073 ≤ binadeShift rank ∧ binadeShift rank ≤ 1023 := by
  obtain ⟨hlow, hhigh⟩ := binade_bounds rank
  rw [binadeShift]
  split <;> omega

theorem decimalExponent_bounds {x : Double} {exponent : Int}
    (h : x.decimalExponent = .ok exponent) : -324 ≤ exponent ∧ exponent ≤ 308 := by
  by_cases hzero : x.isZero = true
  · rw [decimalExponent, if_pos hzero] at h
    obtain rfl := Except.ok.inj h
    decide
  · cases x with
    | nan | infinite => exact absurd h (by simp [decimalExponent, isZero, logTen, floor])
    | finite negative rank =>
      obtain ⟨e, he, hlow, hhigh⟩ := exists_decimalExponent_eq negative
        (show rank.val ≠ 0 by simpa [isZero] using hzero)
      obtain rfl : e = exponent := Except.ok.inj (he.symm.trans h)
      obtain ⟨hleast, hgreatest⟩ := binadeShift_bounds rank
      omega

/-- The numbers that have the lowest decimal exponent are the two least magnitudes. -/
theorem decimalExponent_lowest_iff (hrank : rank.val ≠ 0) :
    (finite negative rank).decimalExponent = .ok (-324) ↔ rank.val ≤ 2 := by
  have hfew : ∀ r ∈ [1, 2, 3], ∀ hr : r < rankCount,
      ((finite false ⟨r, hr⟩).decimalExponent = .ok (-324) ↔ r ≤ 2) := by
    decide +kernel
  rcases Nat.lt_or_ge rank 4 with hlt | hge
  · exact hfew rank.val (by simp only [List.mem_cons, List.not_mem_nil, or_false]; omega) rank.isLt
  · obtain ⟨e, he, hlow, -⟩ := exists_decimalExponent_eq negative hrank
    have hunits : unitsOfRank 4 ≤ unitsOfRank rank := unitsOfRank_strictMono.monotone hge
    have hlog : 2 ≤ (unitsOfRank rank).log2 := le_log2 hunits
    have hshift : -1071 ≤ binadeShift rank := by
      rw [binadeShift, binade]
      split <;> omega
    refine iff_of_false (fun h ↦ ?_) (by omega)
    have heq : e = -324 := Except.ok.inj (he.symm.trans h)
    omega

/-- At the upper end of the doubles the decimal exponent is that of the largest one. -/
theorem decimalExponent_highest (hrank : 23 * (twoTo 1019 * one) ≤ unitsOfRank rank) :
    (finite negative rank).decimalExponent = .ok 308 := by
  have hne : rank.val ≠ 0 := by
    intro h
    have hunit : 0 < twoTo 1019 * one := Nat.mul_pos (twoTo_pos _) (twoTo_pos _)
    rw [h, unitsOfRank_zero] at hrank
    omega
  have heq := decimalExponent_eq negative hne
  rw [heq, le_antisymm (decimalExponent_bounds heq).2 (Int.le_floor.2 (le_logTen negative hrank))]

end DecimalExponent

end Metrology.Double
