import Metrology.Proofs.Double.Order
import Metrology.Proofs.Double.Remainder
import Metrology.Proofs.Double.Shortest
import Metrology.Proofs.Rendering.Numeral
import Metrology.Rendering.Angle

/-!
# Degrees, minutes and seconds

What `Rendering.sexagesimal` writes is a `SexagesimalNumeral`: whole degrees, minutes and seconds in
fields of two digits, and a fraction of so many places. It stands for a whole number of steps of the
last place, and that number is the one that the angle is rounded to (`sexagesimal_exact`).

The parts are cut from the steps with whole numbers, but the seconds are then divided in doubles and
written with places again. Both roundings go unnoticed: the quotient is less than sixty, where
doubles are at most a part in `2 ^ 47` apart, so up to fourteen places it is less than half a step
away from the seconds, and its places are theirs (`stepsAtPlaces_ofQuotient`).

Whole degrees may be of any size, and from `maxDigits` digits on they are too long to be written. No
double is that large (`total_lt_of_isRounded`).
-/

namespace Metrology

namespace Double

theorem exists_ofRank_eq {negative : Bool} {rank : Nat}
    (h : (ofRank negative rank).isFinite = true) :
    ∃ i : Fin rankCount, ofRank negative rank = finite negative i := by
  rw [ofRank] at h ⊢
  split at h
  · next hrank => exact ⟨⟨rank, hrank⟩, dif_pos hrank⟩
  · exact absurd h (by simp)

/-! ### Seconds in doubles -/

/-- Steps that make less than sixty are found again in their quotient: it is less than half a step
away. -/
theorem stepsAtPlaces_ofQuotient {steps places : Nat} (hplaces : places ≤ 14)
    (hsteps : steps < 60 * tenTo places) :
    ∃ rank : Fin rankCount, ofQuotient false steps (tenTo places) = finite false rank ∧
      stepsAtPlaces rank places = steps := by
  have hten : (0 : ℚ) < tenTo places := by exact_mod_cast tenTo_pos places
  have hnonneg : (0 : ℚ) ≤ steps / tenTo places := div_nonneg (Nat.cast_nonneg _) hten.le
  have hlt : (steps / tenTo places : ℚ) < 60 := by
    rw [div_lt_iff₀ hten]
    exact_mod_cast hsteps
  have htop : (60 : ℚ) ≤ 2 ^ 6 := by norm_num
  have hrounds := roundsTo_ofQuotient false (tenTo_pos places)
    (lt_twoTo_of_le_pow (hlt.le.trans htop) (by decide))
  rw [sign, if_neg (by simp), one_mul] at hrounds
  obtain ⟨rank, hrank⟩ : ∃ i, ofQuotient false steps (tenTo places) = finite false i :=
    exists_ofRank_eq hrounds.isFinite
  refine ⟨rank, hrank, ?_⟩
  have hclose := RoundsTo.abs_sub_le_of_lt (j := 47) hrounds (by decide) (by
    rw [abs_of_nonneg hnonneg, twoTo_eq, twoTo_eq]
    linarith)
  rw [hrank, toRat_finite, sign, if_neg (by simp), one_mul] at hclose
  have hrounded := isRounded_stepsAtPlaces rank places
  rw [zpow_neg, zpow_natCast, ← tenTo_eq] at hrounded
  refine hrounded.unique (isRounded_div_of_lt (inv_pos.2 hten) ?_)
  -- a step of `10 ^ (-14)` is more than one of `2 ^ (-47)`
  have hstep : (1 / 2 / twoTo 47 : ℚ) < (tenTo places : ℚ)⁻¹ / 2 := by
    have hplaces' : (tenTo places : ℚ) ≤ 10 ^ 14 := by
      rw [tenTo_eq]
      exact pow_le_pow_right₀ (by norm_num) hplaces
    have hinv := inv_anti₀ hten hplaces'
    rw [twoTo_eq]
    norm_num at hinv ⊢
    linarith
  rw [← div_eq_mul_inv, abs_sub_comm]
  exact hclose.trans_lt hstep

/-! ### Rounded products -/

/-- A product of magnitudes is a magnitude. -/
theorem abs_mul_abs {x y : Double} (hx : x.isFinite = true) (hy : y.isFinite = true) :
    (x.abs * y.abs).abs = x.abs * y.abs := by
  cases x with
  | nan | infinite => exact absurd hx (by simp)
  | finite s p =>
    cases y with
    | nan | infinite => exact absurd hy (by simp)
    | finite t q =>
      show (finite false p * finite false q).abs = finite false p * finite false q
      rw [mul_finite, nearest, ofRank]
      split <;> rfl

/-- A magnitude is rounded to the nearest whole number, if it is finite. -/
theorem roundToInt_eq_ok_iff {x : Double} (habs : x.isFinite = true → x.abs = x) {n : Int} :
    x.roundToInt = .ok n ↔
      x.isFinite = true ∧ ∃ m : Nat, n = m ∧ IsRounded m x.toRat := by
  cases x with
  | nan | infinite =>
    exact ⟨fun h ↦ absurd h (by simp [roundToInt]), fun h ↦ absurd h.1 (by simp)⟩
  | finite negative rank =>
    obtain ⟨rfl, -⟩ := finite.inj (habs rfl).symm
    have hrounded : IsRounded (roundHalfEven (unitsOfRank rank) one)
        (finite false rank).toRat := by
      rw [toRat_finite, sign, if_neg (by simp), one_mul]
      exact abs_roundHalfEven_sub_le _ (twoTo_pos 1074)
    have hround : (finite false rank).roundToInt =
        .ok ((roundHalfEven (unitsOfRank rank) one : Nat) : Int) := rfl
    rw [hround]
    constructor
    · intro h
      exact ⟨rfl, _, (Except.ok.inj h).symm, hrounded⟩
    · rintro ⟨-, m, rfl, hm⟩
      rw [hrounded.unique hm]

end Double

namespace Rendering

open Text Double

/-! ### The steps of an angle -/

/-- An angle in degrees in steps of the last place, as a product of doubles. -/
def product (degrees : Double) (places : Nat) : Double :=
  degrees.abs * 3600 * Double.ofInt (10 ^ places)

/-- The whole number of steps of the last place that an angle in degrees is rounded to. For whole
degrees it is exact, else the product of doubles is rounded, if that is finite. -/
def IsTotal (places total : Nat) : Scalar → Prop
  | .int degrees => total = degrees.natAbs * 3600 * 10 ^ places
  | .double degrees =>
    (product degrees places).isFinite = true ∧ IsRounded total (product degrees places).toRat

/-- The powers of ten that are asked for are doubles. -/
theorem small_scales : ∀ places : Fin 15,
    ofDecimal false 1 places.val = ofInt (10 ^ places.val) ∧
      (ofInt (10 ^ places.val)).isFinite = true ∧
      (ofInt (10 ^ places.val)).abs = ofInt (10 ^ places.val) := by
  decide +kernel

theorem steps_eq_ok_iff {degrees : Scalar} {places : Nat} (hplaces : places ≤ 14) {n : Int} :
    steps (secondsOf degrees) places = .ok n ↔ ∃ total : Nat, n = total ∧
      IsTotal places total degrees := by
  have hneg : ¬(places : Int) < 0 := by omega
  cases degrees with
  | int degrees =>
    have hsteps : steps (secondsOf (.int degrees)) places =
        .ok ((degrees.natAbs * 3600 * 10 ^ places : Nat) : Int) := by
      simp only [secondsOf, steps, if_neg hneg, Int.toNat_natCast]
      push_cast [tenTo]
      rfl
    rw [hsteps]
    constructor
    · intro h
      exact ⟨_, (Except.ok.inj h).symm, rfl⟩
    · rintro ⟨_, rfl, rfl⟩
      rfl
  | double degrees =>
    obtain ⟨hscale, hfinite, habs⟩ := small_scales ⟨places, Nat.lt_succ_of_le hplaces⟩
    have hsteps : steps (secondsOf (.double degrees)) places =
        (product degrees places).roundToInt := by
      simp only [secondsOf, steps, if_neg hneg, product, hscale]
      split
      · next hinfinite => exact absurd hfinite (by rw [hinfinite]; simp)
      · rfl
    have hproduct : (product degrees places).isFinite = true →
        (product degrees places).abs = product degrees places := by
      intro h
      have hseconds := isFinite_of_isFinite_mul h
      have hdegrees := isFinite_of_isFinite_mul hseconds
      rw [isFinite_abs] at hdegrees
      have h3600 : (3600 : Double).abs = 3600 ∧ (3600 : Double).isFinite = true := by
        decide +kernel
      rw [product, ← h3600.1, ← abs_mul_abs hdegrees h3600.2, ← habs]
      rw [← isFinite_abs] at hdegrees
      exact abs_mul_abs (by rwa [h3600.1]) hfinite
    rw [hsteps, roundToInt_eq_ok_iff hproduct]
    constructor
    · rintro ⟨h, m, rfl, hm⟩
      exact ⟨m, rfl, h, hm⟩
    · rintro ⟨m, rfl, h, hm⟩
      exact ⟨h, m, rfl, hm⟩

/-- Whole degrees that have too many digits to be written. -/
def hasLongDegrees : Scalar → Bool
  | .int degrees => tenTo maxDigits ≤ degrees.natAbs
  | .double _ => false

/-- A rounded product of doubles is not that large. -/
theorem total_lt_of_isRounded {x : Double} (hx : x.isFinite = true) {total : Nat}
    (h : IsRounded total x.toRat) : total < tenTo maxDigits := by
  have hlimit : (total : ℚ) < limit := by
    have hnear := (abs_le.1 h.1).2
    have hsmall : (1 / 2 : ℚ) < twoTo 970 :=
      lt_of_lt_of_le (by norm_num) (by exact_mod_cast twoTo_pos 970 : (1 : ℚ) ≤ twoTo 970)
    linarith [abs_toRat_add_lt_limit hx hsmall, le_abs_self x.toRat]
  have hten := hlimit.trans_le limit_le
  rw [zpow_natCast, ← tenTo_eq] at hten
  exact (Nat.cast_lt.1 hten).trans_le (tenTo_le (by decide))

/-- The whole degrees that are cut from the steps have too many digits just if the angle has. -/
theorem IsTotal.degrees_lt_iff {degrees : Scalar} {places total : Nat}
    (h : IsTotal places total degrees) :
    total / (3600 * tenTo places) < tenTo maxDigits ↔ hasLongDegrees degrees = false := by
  have hten := tenTo_pos places
  cases degrees with
  | int degrees =>
    have htotal : total = degrees.natAbs * (3600 * tenTo places) := h.trans (mul_assoc _ _ _)
    rw [htotal, Nat.mul_div_cancel _ (by omega), hasLongDegrees, decide_eq_false_iff_not, not_le]
  | double degrees =>
    exact iff_of_true ((Nat.div_le_self _ _).trans_lt (total_lt_of_isRounded h.1 h.2)) rfl

/-! ### The parts -/

/-- An angle as it is written in degrees, minutes and seconds with places. -/
structure SexagesimalNumeral (places : Nat) where
  degrees : Nat
  minutes : List Char
  seconds : List Char
  fraction : List Char
  isField_minutes : IsField 2 minutes
  isField_seconds : IsField 2 seconds
  isField_fraction : IsField places fraction
  minutes_lt : digitsValue minutes < 60
  seconds_lt : digitsValue (seconds ++ fraction) < 60 * 10 ^ places

namespace SexagesimalNumeral

variable {places : Nat} (angle : SexagesimalNumeral places)

/-- The angle as it is written. -/
def text : List Char :=
  (toString angle.degrees).toList ++ '°' :: angle.minutes ++ '\'' :: angle.seconds ++
    fractionText angle.fraction ++ ['"']

/-- The angle in steps of the last place. -/
def steps : Nat :=
  (angle.degrees * 3600 + digitsValue angle.minutes * 60) * 10 ^ places +
    digitsValue (angle.seconds ++ angle.fraction)

end SexagesimalNumeral

/-- The parts of an angle are cut from its steps as whole numbers. -/
theorem sexagesimalParts_natCast (total scale : Nat) :
    sexagesimalParts total scale =
      ⟨(total / (3600 * scale) : Nat), (total % (3600 * scale) / (60 * scale) : Nat),
        (total % (3600 * scale) % (60 * scale) : Nat)⟩ := by
  have hdegrees : (0 : Int) ≤ 3600 * scale := by positivity
  have hminutes : (0 : Int) ≤ 60 * scale := by positivity
  rw [sexagesimalParts, Int.fdiv_eq_ediv_of_nonneg _ hdegrees,
    Int.fmod_eq_emod_of_nonneg _ hdegrees, Int.fdiv_eq_ediv_of_nonneg _ hminutes,
    Int.fmod_eq_emod_of_nonneg _ hminutes]
  norm_cast

/-- The seconds in a field of two digits, and their places after a point if there are any. -/
theorem exists_fields_fixedDigits {steps places : Nat} (h : steps < 60 * tenTo places) :
    ∃ whole fraction, (padLeft (secondsWidth places).toNat '0' (fixedDigits steps places)).toList =
        whole ++ fractionText fraction ∧ IsField 2 whole ∧ IsField places fraction ∧
      digitsValue (whole ++ fraction) = steps := by
  have hten := tenTo_pos places
  have hwhole : steps / tenTo places < tenTo 2 :=
    (Nat.div_lt_of_lt_mul (by rwa [Nat.mul_comm])).trans (by decide)
  have hfield := isField_padLeft Nat.two_pos hwhole
  rw [secondsWidth, fixedDigits]
  rcases Nat.eq_zero_or_pos places with rfl | hpos
  · refine ⟨_, [], ?_, hfield, ⟨rfl, fun c hc ↦ absurd hc List.not_mem_nil⟩, ?_⟩
    · rw [Nat.cast_zero, if_pos rfl, if_pos rfl, fractionText, if_pos List.isEmpty_nil,
        List.append_nil]
      rfl
    · rw [List.append_nil, digitsValue_padLeft]
      exact Nat.div_one steps
  · have hrest := isField_padLeft hpos (Nat.mod_lt steps hten)
    refine ⟨_, _, ?_, hfield, hrest, ?_⟩
    · have htail : ("." ++ padLeft places '0' (toString (steps % tenTo places))).toList =
          fractionText (padLeft places '0' (toString (steps % tenTo places))).toList := by
        rw [fractionText_of_isField hrest hpos, String.toList_append]
        rfl
      have hwidth : (3 + (places : Int)).toNat =
          2 + ("." ++ padLeft places '0' (toString (steps % tenTo places))).toList.length := by
        rw [String.toList_append, List.length_append, hrest.length_eq,
          show ".".toList.length = 1 from rfl]
        omega
      rw [if_neg (by omega), if_neg (by omega), hwidth, String.append_assoc, padLeft_append, htail]
    · rw [digitsValue_append, hrest.length_eq, digitsValue_padLeft, digitsValue_padLeft]
      exact Nat.div_add_mod' steps (tenTo places)

/-- A magnitude with places, in a field. -/
theorem fixed?_magnitude (rank : Fin rankCount) {places : Nat} (hplaces : places ≤ 14)
    (width : Option Int) :
    (finite false rank).fixed? places width =
      .ok (padLeft (width.getD 0).toNat '0' (fixedDigits (stepsAtPlaces rank places) places)) := by
  have hmax : 14 ≤ maxPlaces := by decide
  rw [fixed?, checkPlaces, if_neg (by omega), if_neg (by omega), Int.toNat_natCast]
  rfl

/-- The text of an angle of so many steps, with the text of its whole degrees. -/
def sexagesimalText (places total : Nat) (whole : String) : String :=
  whole ++ "°" ++
    padLeft 2 '0' (toString (total % (3600 * tenTo places) / (60 * tenTo places))) ++ "'" ++
    padLeft (secondsWidth places).toNat '0'
      (fixedDigits (total % (3600 * tenTo places) % (60 * tenTo places)) places) ++ "\""

theorem sexagesimal_eq {degrees : Scalar} {places total : Nat} (hplaces : places ≤ 14)
    (htotal : IsTotal places total degrees) :
    sexagesimal degrees places =
      (wholeNumber (total / (3600 * tenTo places) : Nat)).map (sexagesimalText places total) := by
  have hsteps := (steps_eq_ok_iff hplaces).2 ⟨total, rfl, htotal⟩
  have hseconds : total % (3600 * tenTo places) % (60 * tenTo places) < 60 * tenTo places :=
    Nat.mod_lt _ (Nat.mul_pos (by decide) (tenTo_pos places))
  obtain ⟨rank, hquotient, hshown⟩ := stepsAtPlaces_ofQuotient hplaces hseconds
  have hnumeral := fixed?_magnitude rank hplaces (some (secondsWidth places))
  simp only [Option.getD_some] at hnumeral
  rw [hshown] at hnumeral
  have hneg : ¬(places : Int) < 0 := by omega
  simp only [sexagesimal, hsteps, sexagesimalParts_natCast, Int.toNat_natCast, Int.natAbs_natCast,
    hquotient, bind, Except.bind, if_neg hneg, hnumeral]
  cases wholeNumber (total / (3600 * tenTo places) : Nat) <;> rfl

theorem sexagesimal_eq_ok {degrees : Scalar} {places total : Nat} (hplaces : places ≤ 14)
    (htotal : IsTotal places total degrees) (hlong : hasLongDegrees degrees = false) :
    sexagesimal degrees places =
      .ok (sexagesimalText places total (toString (total / (3600 * tenTo places)))) := by
  rw [sexagesimal_eq hplaces htotal, wholeNumber, Int.natAbs_natCast,
    if_pos (htotal.degrees_lt_iff.2 hlong)]
  rfl

/-- Degrees that are too long to be written are refused. -/
theorem sexagesimalOf_eq_error {degrees : Scalar} {places total : Nat} (hplaces : places ≤ 14)
    (htotal : IsTotal places total degrees) (hlong : hasLongDegrees degrees = true) :
    sexagesimalOf (.number degrees) places = .error (.number .unwritableDigits) := by
  have hdegrees := mt htotal.degrees_lt_iff.1 (by simp [hlong])
  rw [sexagesimalOf, sexagesimal_eq hplaces htotal, wholeNumber, Int.natAbs_natCast,
    if_neg hdegrees]
  rfl

/-- An angle of so many steps is written as a numeral of so many steps. -/
theorem exists_sexagesimal_eq {degrees : Scalar} {places total : Nat} (hplaces : places ≤ 14)
    (htotal : IsTotal places total degrees) (hlong : hasLongDegrees degrees = false) :
    ∃ (angle : SexagesimalNumeral places) (text : String),
      sexagesimal degrees places = .ok text ∧ text.toList = angle.text ∧ angle.steps = total := by
  have hten := tenTo_pos places
  have hrest : total % (3600 * tenTo places) < 60 * tenTo places * 60 := by
    have hlt := Nat.mod_lt total (show 0 < 3600 * tenTo places by omega)
    omega
  have hminutes := Nat.div_lt_of_lt_mul hrest
  have hseconds := Nat.mod_lt (total % (3600 * tenTo places)) (show 0 < 60 * tenTo places by omega)
  obtain ⟨minutes, htext, hfield, hvalue⟩ : ∃ minutes,
      (padLeft 2 '0' (toString (total % (3600 * tenTo places) / (60 * tenTo places)))).toList =
        minutes ∧ IsField 2 minutes ∧
      digitsValue minutes = total % (3600 * tenTo places) / (60 * tenTo places) :=
    ⟨_, rfl, isField_padLeft Nat.two_pos (hminutes.trans (by decide : 60 < tenTo 2)),
      digitsValue_padLeft _ _⟩
  obtain ⟨whole, fraction, htext', hwhole, hfraction, hvalue'⟩ :=
    exists_fields_fixedDigits hseconds
  have hlt : digitsValue (whole ++ fraction) < 60 * 10 ^ places := by
    rw [hvalue']
    exact hseconds
  refine ⟨⟨total / (3600 * tenTo places), minutes, whole, fraction, hfield, hwhole, hfraction,
    hvalue.trans_lt hminutes, hlt⟩, _, sexagesimal_eq_ok hplaces htotal hlong, ?_, ?_⟩
  · simp only [sexagesimalText, SexagesimalNumeral.text, String.toList_append, htext, htext',
      List.append_assoc]
    rfl
  · show (total / (3600 * tenTo places) * 3600 + digitsValue minutes * 60) * tenTo places +
      digitsValue (whole ++ fraction) = total
    rw [hvalue, hvalue']
    -- the parts are put together in the order in which they were cut off
    have hdegrees := Nat.div_add_mod total (3600 * tenTo places)
    have hrest := Nat.div_add_mod (total % (3600 * tenTo places)) (60 * tenTo places)
    linarith

/-- **Degrees, minutes and seconds are exact.** Up to fourteen places an angle whose steps of the
last place can be told, in whole degrees or as a finite product of doubles, is written as degrees,
minutes and seconds that make as many steps. Minutes and seconds have two digits and are less than
sixty, and the seconds have just the places that are asked for. Only whole degrees that are too long
to be written are refused. -/
theorem sexagesimal_exact {degrees : Scalar} {places total : Nat} (hplaces : places ≤ 14)
    (htotal : IsTotal places total degrees) :
    if hasLongDegrees degrees then
      sexagesimalOf (.number degrees) places = .error (.number .unwritableDigits)
    else ∃ (angle : SexagesimalNumeral places) (text : String),
      sexagesimalOf (.number degrees) places = .ok text ∧ text.toList = angle.text ∧
        angle.steps = total := by
  split
  · next hlong => exact sexagesimalOf_eq_error hplaces htotal hlong
  · next hlong =>
    obtain ⟨angle, text, htext, hangle, hsteps⟩ :=
      exists_sexagesimal_eq hplaces htotal (by simpa using hlong)
    refine ⟨angle, text, ?_, hangle, hsteps⟩
    rw [sexagesimalOf, htext]
    rfl

/-- Just below one degree, everything carries. -/
theorem sexagesimal_exact_carry :
    (1 ≤ 14 ∧ IsTotal 1 36000 (.double 0.99999999)) ∧
      ∃ (angle : SexagesimalNumeral 1) (text : String),
        sexagesimalOf (.number (.double 0.99999999)) 1 = .ok text ∧ text.toList = angle.text ∧
          angle.steps = 36000 := by
  have htotal : IsTotal 1 36000 (.double 0.99999999) := by
    refine ⟨by decide +kernel, ?_⟩
    have hclose : 35999.5 < (product 0.99999999 1).toRat ∧
        (product 0.99999999 1).toRat < 36000 := by decide +kernel
    refine isRounded_of_lt ?_
    rw [abs_lt]
    constructor <;> norm_num at hclose ⊢ <;> linarith
  exact ⟨⟨by decide, htotal⟩, sexagesimal_exact (by decide) htotal⟩

/-- The least whole degrees that are too long to be written have their steps, but no text. -/
theorem sexagesimal_too_long :
    IsTotal 1 (tenTo maxDigits * 3600 * 10 ^ 1) (.int (tenTo maxDigits)) ∧
      sexagesimalOf (.number (.int (tenTo maxDigits))) 1 =
        .error (.number .unwritableDigits) := by
  have htotal : IsTotal 1 (tenTo maxDigits * 3600 * 10 ^ 1) (.int (tenTo maxDigits)) := by
    rw [IsTotal, Int.natAbs_natCast]
  have hlong : hasLongDegrees (.int (tenTo maxDigits)) = true := by
    rw [hasLongDegrees, Int.natAbs_natCast, decide_eq_true_eq]
  exact ⟨htotal, sexagesimalOf_eq_error (by decide) htotal hlong⟩

end Rendering

end Metrology
