import Metrology.Proofs.Double.Order
import Metrology.Proofs.Rendering.Significant

/-!
# When a rendering fails

Fewer digits than one are refused, and the refusal shows them; a number of digits that is itself too
long to be shown fails there (`Rendering.tooFewDigits_eq`). Besides, renderings of a double have
three ways to fail.

* Rounding to significant digits goes beyond the largest double, which is looked into in the
  rounding (`Double.RoundsBeyond`). Every rendering rounds first, and no later rounding goes beyond.
* The scientific mantissa of the two least magnitudes is a quotient by zero, since their power of
  ten is zero as a double (`Double.isLowest`).
* More places are asked for than a text can hold, which takes some two thousand million digits.

In all other cases there is a text (`Rendering.Answers`): decimal exponents exist, mantissas have a
finite quotient, and the prefixes and names leave mantissas that are far from the largest double.
-/

namespace Metrology

/-- One of the two least magnitudes above zero. -/
def Double.isLowest : Double → Bool
  | finite _ rank => rank.val = 1 || rank.val = 2
  | _ => false

namespace Rendering

open Double

/-! ### Answers -/

/-- A rendering gives a text, unless more places are asked for than a text can hold. -/
def Answers {α : Type} (digits : Int) (result : Except Failure α) : Prop :=
  (∃ text, result = .ok text) ∨ ∃ places : Nat, maxPlaces < places ∧ places ≤ digits + 323 ∧
    result = .error (.number (.tooManyPlaces places))

variable {digits : Int} {unicode : Bool} {x rounded : Double}

theorem ok_bind {α β ε : Type} (a : α) (f : α → Except ε β) : (Except.ok a >>= f) = f a := rfl

theorem error_bind {α β ε : Type} (e : ε) (f : α → Except ε β) :
    (Except.error e >>= f) = .error e := rfl

theorem Answers.bind_ok {α β : Type} {result : Except Failure α} (h : Answers digits result)
    (f : α → β) : Answers digits (do let text ← result; .ok (f text)) := by
  rcases h with ⟨text, rfl⟩ | ⟨places, hmany, hle, rfl⟩
  · exact Or.inl ⟨f text, rfl⟩
  · exact Or.inr ⟨places, hmany, hle, rfl⟩

theorem answers_trimmed (x : Double) {places : Int} (hnonneg : 0 ≤ places)
    (hle : places ≤ digits + 323) : Answers digits (arithmetic (x.trimmed? places)) := by
  obtain ⟨n, rfl⟩ := Int.eq_ofNat_of_zero_le hnonneg
  rcases Nat.lt_or_ge maxPlaces n with hmany | hfew
  · have hcheck : checkPlaces n none = .error (.tooManyPlaces n) := by
      rw [checkPlaces, if_neg (by omega), Int.toNat_natCast, if_pos hmany]
    refine Or.inr ⟨n, hmany, hle, ?_⟩
    rw [trimmed?, hcheck]
    rfl
  · have hcheck : checkPlaces n none = .ok n := by
      rw [checkPlaces, if_neg (by omega), Int.toNat_natCast, if_neg (by omega)]
    refine Or.inl ⟨trimZeros (x.fixed (min n exactPlaces)), ?_⟩
    rw [trimmed?, hcheck]
    rfl

theorem arithmetic_ok {α : Type} (a : α) : arithmetic (.ok a) = .ok a := rfl

/-- What is done with a text does not depend on where failures are lifted. -/
theorem arithmetic_bind_ok (result : Except NumberError String) (f : String → String) :
    arithmetic (do let text ← result; .ok (f text)) =
      (do let text ← arithmetic result; .ok (f text)) := by
  cases result <;> rfl

/-! ### Refused digits -/

/-- The refusal of fewer digits than one is another failure where they are too long to be shown. -/
theorem tooFewDigits_eq (digits : Int) :
    tooFewDigits digits =
      if digits.natAbs < tenTo Text.maxDigits then .rendering (.tooFewDigits digits)
      else .number .unwritableDigits := by
  unfold tooFewDigits Text.wholeNumber
  -- the bound is a number that is better not computed
  generalize tenTo Text.maxDigits = bound
  split_ifs <;> rfl

/-! ### Rounding -/

theorem roundSignificant_double (hdigits : 1 ≤ digits) :
    roundSignificant (.double x) digits = arithmetic (roundDouble x digits) := by
  rw [roundSignificant, if_neg (by omega)]
  rfl

theorem roundSignificant_overflow (hdigits : 1 ≤ digits) (h : x.RoundsBeyond digits) :
    roundSignificant (.double x) digits = .error (.number .overflow) := by
  rw [roundSignificant_double hdigits, roundDouble_overflow hdigits h]
  rfl

theorem not_roundsBeyond_of_isFinite_eq_false (h : x.isFinite = false) :
    ¬x.RoundsBeyond digits := by
  rintro ⟨negative, rank, rfl, -⟩
  exact absurd h (by simp)

/-- Where rounding does not go beyond the largest double, it gives a double of the same class that
does not go beyond either. -/
theorem exists_roundSignificant_eq (hdigits : 1 ≤ digits) (h : ¬x.RoundsBeyond digits) :
    ∃ rounded, roundSignificant (.double x) digits = .ok rounded ∧
      ¬rounded.RoundsBeyond digits ∧ rounded.isFinite = x.isFinite := by
  rw [roundSignificant_double hdigits]
  cases x with
  | nan | infinite =>
    exact ⟨_, rfl, not_roundsBeyond_of_isFinite_eq_false rfl, rfl⟩
  | finite negative rank =>
    obtain ⟨rounded, hrounded, -⟩ := exists_roundDouble_eq hdigits h
    refine ⟨finite negative rounded, ?_, not_roundsBeyond_of_roundDouble hdigits h hrounded, rfl⟩
    rw [hrounded]
    rfl

/-! ### Plain -/

theorem answers_plainRounded (rounded : Double) (hdigits : 1 ≤ digits) :
    Answers digits (arithmetic (plainRounded rounded digits)) := by
  rw [plainRounded]
  split
  · exact Or.inl ⟨_, rfl⟩
  · next hfinite =>
    split
    · exact Or.inl ⟨_, rfl⟩
    · next hzero =>
      cases rounded with
      | nan | infinite => exact absurd rfl hfinite
      | finite negative rank =>
        obtain ⟨exponent, hexponent, -⟩ := exists_decimalExponent_eq negative
          (show rank.val ≠ 0 by simpa [isZero] using hzero)
        have hlow := (decimalExponent_bounds hexponent).1
        rw [hexponent, ok_bind]
        exact answers_trimmed (finite negative rank) (le_max_left _ _) (by omega)

theorem answers_plain (hdigits : 1 ≤ digits) (h : ¬x.RoundsBeyond digits) :
    Answers digits (plain (.double x) digits) := by
  obtain ⟨rounded, hrounded, -⟩ := exists_roundSignificant_eq hdigits h
  rw [plain, hrounded]
  exact answers_plainRounded rounded hdigits

/-! ### Scientific -/

/-- The power of ten of the two least magnitudes is zero. -/
theorem scientificRounded_lowest (h : rounded.isLowest = true) :
    scientificRounded rounded digits unicode = .error .divisionByZero := by
  cases rounded with
  | nan | infinite => exact absurd h (by simp [isLowest])
  | finite negative rank =>
    have hrank : rank.val = 1 ∨ rank.val = 2 := by simpa [isLowest] using h
    have hexponent := (decimalExponent_lowest_iff negative (show rank.val ≠ 0 by omega)).2
      (by omega)
    rw [scientificRounded, if_neg (by simp), if_neg (by simp [isZero]; omega), hexponent, ok_bind,
      scaleDown, if_pos isZero_tenPow_lowest, error_bind]

/-- Rounding to places that follow the point does not go beyond the largest double. -/
theorem exists_roundPlaces_of_nonneg {places : Int} (hplaces : 0 ≤ places)
    (hx : x.isFinite = true) : ∃ rounded, x.roundPlaces places = .ok rounded := by
  cases x with
  | nan | infinite => exact absurd hx (by simp)
  | finite negative rank =>
    rcases lt_or_ge 323 places with hmany | hfew
    · exact ⟨_, by rw [roundPlaces, if_pos hmany]⟩
    · obtain ⟨rounded, hrounded, -⟩ := exists_roundPlaces_eq negative (by omega) hfew
        (roundedAt_lt_limit_of_le rank (by omega))
      exact ⟨_, hrounded⟩

theorem answers_scientificRounded (hdigits : 1 ≤ digits) (h : rounded.isLowest = false) :
    Answers digits (arithmetic (scientificRounded rounded digits unicode)) := by
  rw [scientificRounded]
  split
  · exact Or.inl ⟨_, rfl⟩
  · next hfinite =>
    split
    · exact Or.inl ⟨_, rfl⟩
    · next hzero =>
      cases rounded with
      | nan | infinite => exact absurd rfl hfinite
      | finite negative rank =>
        have hrank : rank.val ≠ 0 := by simpa [isZero] using hzero
        obtain ⟨exponent, hexponent, -⟩ := exists_decimalExponent_eq negative hrank
        obtain ⟨hlow, hhigh⟩ := decimalExponent_bounds hexponent
        have hne : exponent ≠ -324 := by
          rintro rfl
          have hlowest := (decimalExponent_lowest_iff negative hrank).1 hexponent
          have hnone : ¬(rank.val = 1 ∨ rank.val = 2) := by simpa [isLowest] using h
          omega
        have hpower := isZero_tenPow (show -323 ≤ exponent by omega) hhigh
        have hscale : scaleDown (finite negative rank) exponent =
            .ok (finite negative rank / tenPow exponent) := by
          rw [scaleDown, if_neg (by simp [hpower])]
        have hquotient := isFinite_scaleDown (by simpa [isFiniteNonzero, isZero] using hrank)
          hexponent hscale
        obtain ⟨mantissa, hmantissa⟩ := exists_roundPlaces_of_nonneg
          (show 0 ≤ digits - 1 by omega) hquotient
        rw [hexponent, ok_bind, hscale, ok_bind, hmantissa, ok_bind, arithmetic_bind_ok]
        exact (answers_trimmed _ (by omega) (by omega)).bind_ok _

theorem scientific_lowest (hrounded : roundSignificant (.double x) digits = .ok rounded)
    (h : rounded.isLowest = true) :
    scientific (.double x) digits unicode = .error (.number .divisionByZero) := by
  rw [scientific, hrounded, ok_bind, scientificRounded_lowest h]
  rfl

theorem answers_scientific (hdigits : 1 ≤ digits)
    (hrounded : roundSignificant (.double x) digits = .ok rounded) (h : rounded.isLowest = false) :
    Answers digits (scientific (.double x) digits unicode) := by
  rw [scientific, hrounded, ok_bind]
  exact answers_scientificRounded hdigits h

/-! ### Mantissas of a thousand -/

section Mantissa

variable (negative : Bool) {rank : Fin rankCount} {exponent : Int}

/-- The decimal exponent of a finite number exists, and is not low if the number is large. -/
theorem exists_decimalExponent_of_finite (rank : Fin rankCount) :
    ∃ exponent, (finite negative rank).decimalExponent = .ok exponent ∧
      30103 * binade rank < 100000 * exponent + 159000 := by
  by_cases hzero : rank.val = 0
  · refine ⟨0, by rw [Double.decimalExponent, if_pos (by simp [isZero, hzero])], ?_⟩
    rw [binade, hzero, unitsOfRank_zero, Nat.log2_zero]
    decide
  · obtain ⟨exponent, hexponent, hlow, -⟩ := exists_decimalExponent_eq negative hzero
    refine ⟨exponent, hexponent, ?_⟩
    rw [binadeShift] at hlow
    split at hlow <;> omega

/-- A quotient by a power of ten that leaves it small is not carried beyond the largest double. -/
theorem not_roundsBeyond_div_tenPow (rank : Fin rankCount) (hdigits : 1 ≤ digits) {k : Int}
    (hlow : -323 ≤ k) (hhigh : k ≤ 308)
    (h : 0 ≤ k ∧ binade rank + 2 ≤ 1020 + 3 * k ∨ k ≤ 0 ∧ binade rank + 2 ≤ 1020 + 4 * k) :
    ¬(finite negative rank / tenPow k).RoundsBeyond digits := by
  have hone := one_pos'
  have hquotient := abs_div_tenPow_lt negative rank (n := 1020) hlow hhigh h
  have hrounded := (roundsTo_div rfl (le_two_mul_tenPow hlow hhigh).1
    (isZero_tenPow hlow hhigh)
    (hquotient.trans_le (two_zpow_le_twoTo (by decide)))).approximates
  have hpower : (2 : ℚ) ^ (1020 : Int) = 2 * twoTo 1019 := by
    rw [twoTo_eq, ← zpow_natCast, mul_comm, ← zpow_add_one₀ two_ne_zero]
    rfl
  rw [hpower] at hquotient
  clear hpower
  have hunit : (1 : ℚ) ≤ twoTo 1019 := by exact_mod_cast twoTo_pos 1019
  have hsmall : (1 : ℚ) / one ≤ 1 := (div_le_one hone).2 (by exact_mod_cast twoTo_pos 1074)
  have hclose := hrounded.abs_sub_le
  generalize (finite negative rank).toRat / (tenPow k).toRat = quotient at *
  generalize hmantissa : finite negative rank / tenPow k = mantissa at *
  cases mantissa with
  | nan | infinite => exact not_roundsBeyond_of_isFinite_eq_false rfl
  | finite s r =>
    refine not_roundsBeyond_of_lt ?_ hdigits
    have hvalue : (unitsOfRank r / one : ℚ) < 23 * twoTo 1019 := by
      have htriangle := abs_add_le quotient ((finite s r).toRat - quotient)
      rw [add_sub_cancel, abs_toRat_finite] at htriangle
      have hpart : |quotient| / 2 ^ 52 ≤ |quotient| := div_le_self (abs_nonneg _) (by norm_num)
      generalize (twoTo 1019 : ℚ) = unit at *
      linarith
    rw [div_lt_iff₀ hone, mul_assoc, ← Nat.cast_mul] at hvalue
    exact_mod_cast hvalue

end Mantissa

/-! ### SI prefixes -/

theorem siExponent_bounds (exponent : Int) : -24 ≤ siExponent exponent ∧
    siExponent exponent ≤ 24 ∧ (3 ≤ siExponent exponent ∨
      siExponent exponent ≤ 0 ∧ exponent ≤ 2) := by
  rw [siExponent, thousandsExponent, Int.fdiv_eq_ediv_of_nonneg _ (by decide)]
  omega

theorem answers_si (hdigits : 1 ≤ digits) (h : ¬x.RoundsBeyond digits) (unit : RawText) :
    Answers digits (si (.double x) unit digits unicode) := by
  obtain ⟨rounded, hrounded, -⟩ := exists_roundSignificant_eq hdigits h
  rw [si, hrounded, ok_bind]
  cases rounded with
  | nan | infinite => exact Or.inl ⟨_, rfl⟩
  | finite negative rank =>
    obtain ⟨exponent, hexponent, hlarge⟩ := exists_decimalExponent_of_finite negative rank
    obtain ⟨hlow, hhigh, hside⟩ := siExponent_bounds exponent
    have htop := (binade_bounds rank).2
    have hscale : scaleDown (finite negative rank) (siExponent exponent) =
        .ok (finite negative rank / tenPow (siExponent exponent)) := by
      rw [scaleDown, if_neg (by simp [isZero_tenPow (show -323 ≤ siExponent exponent by omega)
        (by omega)])]
    have hmantissa := answers_plain hdigits (not_roundsBeyond_div_tenPow negative rank hdigits
      (k := siExponent exponent) (by omega) (by omega) (by omega))
    rw [if_neg (by simp), hexponent, arithmetic_ok, ok_bind]
    dsimp only
    rw [hscale, arithmetic_ok, ok_bind]
    exact hmantissa.bind_ok _

/-! ### Named powers of a thousand -/

theorem thousandNames_bounds {exponent : Int} {name : String}
    (h : thousandNames.lookup exponent = some name) : 3 ≤ exponent ∧ exponent ≤ 33 := by
  have hmem : ∀ entry ∈ thousandNames, 3 ≤ entry.1 ∧ entry.1 ≤ 33 := by decide
  obtain ⟨before, after, hsplit, -⟩ := List.lookup_eq_some_iff.1 h
  exact hmem (exponent, name) (hsplit ▸ List.mem_append_right _ List.mem_cons_self)

/-- A thousand is at least one. -/
theorem one_le_of_not_lt_thousand {negative : Bool} {rank : Fin rankCount}
    (h : Double.lt (finite negative rank).abs 1000 = false) : one ≤ unitsOfRank rank := by
  have hthousand : (1000 : Double).isFinite = true ∧ (1000 : Double).toRat = 1000 :=
    toRat_ofNat (by decide)
  have hle : ¬|(finite negative rank).toRat| < (1000 : Double).toRat := by
    rw [← toRat_abs, ← lt_iff_toRat_lt rfl hthousand.1, h]
    exact Bool.false_ne_true
  rw [not_lt, hthousand.2, abs_toRat_finite, le_div_iff₀ one_pos'] at hle
  have hunits : 1000 * one ≤ unitsOfRank rank := by exact_mod_cast hle
  omega

theorem answers_named (hdigits : 1 ≤ digits) (h : ¬x.RoundsBeyond digits) :
    Answers digits (named (.double x) digits) := by
  obtain ⟨rounded, hrounded, hagain, -⟩ := exists_roundSignificant_eq hdigits h
  rw [named, hrounded, ok_bind]
  split
  · exact answers_plain hdigits hagain
  · next hlarge =>
    cases rounded with
    | nan | infinite => exact absurd rfl hlarge
    | finite negative rank =>
      have hunits := one_le_of_not_lt_thousand
        (show Double.lt (finite negative rank).abs 1000 = false by simpa using hlarge)
      obtain ⟨exponent, hexponent, -⟩ := exists_decimalExponent_of_finite negative rank
      have htop := (binade_bounds rank).2
      rw [hexponent, arithmetic_ok, ok_bind]
      dsimp only
      split
      · -- rounding once more leaves the number far from the two least magnitudes
        obtain ⟨r, hr, -⟩ := exists_roundDouble_eq hdigits hagain
        have hrank := rank_of_roundDouble hdigits hagain hunits hr
        have hlowest : (finite negative r).isLowest = false := by
          simp only [isLowest, Bool.or_eq_false_iff, decide_eq_false_iff_not]
          omega
        refine answers_scientific hdigits ?_ hlowest
        rw [roundSignificant_double hdigits, hr, arithmetic_ok]
      · next name hname =>
        obtain ⟨hlow, hhigh⟩ := thousandNames_bounds hname
        have hscale : scaleDown (finite negative rank) (thousandsExponent exponent) =
            .ok (finite negative rank / tenPow (thousandsExponent exponent)) := by
          rw [scaleDown, if_neg (by simp [isZero_tenPow
            (show -323 ≤ thousandsExponent exponent by omega) (by omega)])]
        have hmantissa := answers_plain hdigits (not_roundsBeyond_div_tenPow negative rank hdigits
          (k := thousandsExponent exponent) (by omega) (by omega) (by omega))
        rw [hscale, arithmetic_ok, ok_bind]
        exact hmantissa.bind_ok _

/-! ### All renderings -/

/-- Rounding and all renderings fail in one way. -/
structure AllFail (x : Scalar) (unit : RawText) (digits : Int) (unicode : Bool) (e : Failure) :
    Prop where
  roundSignificant_eq : roundSignificant x digits = .error e
  plain_eq : plain x digits = .error e
  scientific_eq : scientific x digits unicode = .error e
  si_eq : si x unit digits unicode = .error e
  named_eq : named x digits = .error e

/-- A failure to round is the failure of every rendering. -/
theorem allFail_of_roundSignificant {x : Scalar} {e : Failure}
    (h : roundSignificant x digits = .error e) (unit : RawText) :
    AllFail x unit digits unicode e := by
  refine ⟨h, ?_, ?_, ?_, ?_⟩
  · rw [plain, h, error_bind]
  · rw [scientific, h, error_bind]
  · rw [si, h, error_bind]
  · rw [named, h, error_bind]

theorem allFail_tooFewDigits (x : Scalar) (unit : RawText) (h : digits < 1) :
    AllFail x unit digits unicode (tooFewDigits digits) :=
  allFail_of_roundSignificant (by rw [roundSignificant, if_pos h]) unit

/-- **What can go wrong in rounding and rendering a double.** Fewer digits than one are refused,
unless there are too many digits in their number for the refusal to show it, which fails itself. A
number that rounds beyond the largest double overflows. All other numbers are rounded, and rendered
in every style, but that the scientific style divides by zero for the two least magnitudes. -/
theorem renderings_outcome (x : Double) (unit : RawText) (digits : Int) (unicode : Bool) :
    if digits ≤ -(tenTo Text.maxDigits : Int) then
      AllFail (.double x) unit digits unicode (.number .unwritableDigits)
    else if digits < 1 then
      AllFail (.double x) unit digits unicode (.rendering (.tooFewDigits digits))
    else if x.RoundsBeyond digits then
      AllFail (.double x) unit digits unicode (.number .overflow)
    else ∃ rounded, roundSignificant (.double x) digits = .ok rounded ∧
      Answers digits (plain (.double x) digits) ∧
      Answers digits (si (.double x) unit digits unicode) ∧
      Answers digits (named (.double x) digits) ∧
      if rounded.isLowest then
        scientific (.double x) digits unicode = .error (.number .divisionByZero)
      else Answers digits (scientific (.double x) digits unicode) := by
  have hfew : digits < 1 → AllFail (.double x) unit digits unicode (tooFewDigits digits) :=
    allFail_tooFewDigits (.double x) unit
  rw [tooFewDigits_eq] at hfew
  have hbound : (0 : Int) < tenTo Text.maxDigits := by exact_mod_cast tenTo_pos Text.maxDigits
  generalize tenTo Text.maxDigits = bound at hfew hbound ⊢
  split_ifs with hlong hdigits hbeyond
  · rw [if_neg (by omega)] at hfew
    exact hfew (by omega)
  · rw [if_pos (by omega)] at hfew
    exact hfew hdigits
  · exact allFail_of_roundSignificant (roundSignificant_overflow (by omega) hbeyond) unit
  · obtain ⟨rounded, hrounded, -⟩ := exists_roundSignificant_eq (by omega) hbeyond
    refine ⟨rounded, hrounded, answers_plain (by omega) hbeyond,
      answers_si (by omega) hbeyond unit, answers_named (by omega) hbeyond, ?_⟩
    split
    · next hlowest => exact scientific_lowest hrounded hlowest
    · next hlowest => exact answers_scientific (by omega) hrounded (by simpa using hlowest)

/-- The least magnitude has no scientific rendering, the largest no rendering to three digits, and
no number one to a number of digits that is too long to be shown. -/
theorem renderings_extremes :
    scientific (.double 5e-324) 3 false = .error (.number .divisionByZero) ∧
      AllFail (.double 1.7976931348623157e308) "" 3 false (.number .overflow) ∧
      AllFail (.double 1) "" (-(tenTo Text.maxDigits : Int)) false
        (.number .unwritableDigits) := by
  refine ⟨?_, ?_, ?_⟩
  · have hrounded : roundSignificant (.double 5e-324) 3 = .ok 5e-324 := by
      rw [roundSignificant_double (by decide),
        show roundDouble 5e-324 3 = .ok 5e-324 by decide +kernel, arithmetic_ok]
    exact scientific_lowest hrounded (by decide +kernel)
  · exact allFail_of_roundSignificant (roundSignificant_overflow (by decide) (by decide +kernel)) ""
  · have hbound : (0 : Int) < tenTo Text.maxDigits := by exact_mod_cast tenTo_pos Text.maxDigits
    have hfail : AllFail (.double 1) "" (-(tenTo Text.maxDigits : Int)) false
        (tooFewDigits (-(tenTo Text.maxDigits : Int))) :=
      allFail_tooFewDigits (.double 1) "" (by omega)
    rwa [tooFewDigits_eq, Int.natAbs_neg, Int.natAbs_natCast, if_neg (lt_irrefl _)] at hfail

end Rendering

end Metrology
