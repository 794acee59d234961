import Metrology.Proofs.Double.Remainder
import Metrology.Proofs.Rendering.Sexagesimal

/-!
# The range of longitudes

A longitude is brought above -180 degrees and up to 180 degrees before it is written
(`wrapLongitude_bounds`). Neither the remainder nor the difference is exact, and the remainder may
be the whole modulus, but both are rounded to one side of a double, and the one value at the lower
end is replaced.

Rounding for display comes afterwards. It keeps the magnitude at 180 degrees or below, in decimal
degrees and in degrees, minutes and seconds, where products of doubles are rounded first
(`product_bounds`). But what is at most half a step above -180 degrees is written as 180 degrees
with the western letter, and nothing else is (`longitude_range`).
-/

namespace Metrology

namespace Rendering

open Text Double

/-- A longitude is brought into its range. -/
theorem wrapLongitude_bounds {degrees : Double} (h : degrees.isFinite = true) :
    (wrapLongitude degrees).isFinite = true ∧ -180 < (wrapLongitude degrees).toRat ∧
      (wrapLongitude degrees).toRat ≤ 180 := by
  have h180 : (180 : Double).isFinite = true ∧ (180 : Double).toRat = 180 :=
    toRat_ofNat (by decide)
  have h360 : (360 : Double).isFinite = true ∧ (360 : Double).toRat = 360 :=
    toRat_ofNat (by decide)
  have hminus : (-180 : Double).isFinite = true ∧ (-180 : Double).toRat = -180 := by
    decide +kernel
  have hlimit := abs_toRat_add_lt_limit h
    (lt_twoTo_of_le_pow (by norm_num : (180 : ℚ) ≤ 2 ^ 8) (by decide))
  have hsum : |degrees.toRat + (180 : Double).toRat| < limit := by
    refine (abs_add_le _ _).trans_lt ?_
    rwa [h180.2, abs_of_nonneg (by norm_num : (0 : ℚ) ≤ 180)]
  have hshifted := roundsTo_add_of_lt_limit h h180.1 hsum
  obtain ⟨hfinite, hlow, hhigh⟩ :=
    floorMod_bounds hshifted.isFinite h360.1 (by rw [h360.2]; norm_num)
  rw [h360.2] at hhigh
  rw [wrapLongitude]
  generalize (degrees + 180).floorMod 360 = rest at *
  have hdifference : |rest.toRat + (-180 : Double).toRat| < limit := by
    rw [hminus.2, abs_lt]
    constructor <;> linarith [abs_nonneg degrees.toRat]
  have hwrapped : (rest - 180).RoundsTo (rest.toRat + (-180 : Double).toRat) :=
    roundsTo_add_of_lt_limit hfinite hminus.1 hdifference
  have hge := hwrapped.ge_of_ge hminus.1 (by linarith)
  have hle := hwrapped.le_of_le h180.1 (by rw [hminus.2, h180.2]; linarith)
  rw [hminus.2] at hge
  rw [h180.2] at hle
  split
  · rw [h180.2]
    exact ⟨h180.1, by norm_num, le_rfl⟩
  · next hne =>
    rw [eqv_iff_toRat_eq hwrapped.isFinite hminus.1, hminus.2] at hne
    exact ⟨hwrapped.isFinite, lt_of_le_of_ne hge fun heq ↦ hne heq.symm, hle⟩

/-! ### Steps of a longitude -/

/-- How many steps of the last place make a degree. -/
def stepsPerDegree (decimal : Bool) (places : Nat) : Nat :=
  if decimal then 10 ^ places else 3600 * 10 ^ places

/-- The magnitude of an angle in degrees in steps of the last place, before these are rounded to a
whole number: exact for decimal degrees, else a product of doubles. -/
def unroundedSteps (decimal : Bool) (places : Nat) (degrees : Double) : ℚ :=
  if decimal then |degrees.toRat| * 10 ^ places else (product degrees places).toRat

/-- A text is so many steps of the last place with the letter of a hemisphere. -/
inductive ShowsAngle (places : Nat) (letter : String) (steps : Nat) : Bool → String → Prop where
  | decimal {text : String} (d : Numeral) (hpositive : d.negative = false)
      (htext : text.toList = d.mantissa ++ '°' :: letter.toList)
      (hmagnitude : d.magnitude = steps / 10 ^ places) : ShowsAngle places letter steps true text
  | sexagesimal {text : String} (angle : SexagesimalNumeral places)
      (htext : text.toList = angle.text ++ letter.toList) (hsteps : angle.steps = steps) :
      ShowsAngle places letter steps false text

/-- The powers of ten that are asked for, and what 180 degrees make in steps, are doubles. -/
theorem small_steps : ∀ places : Fin 15,
    (ofInt (10 ^ places.val)).isFinite = true ∧
      (ofInt (10 ^ places.val)).toRat = 10 ^ places.val ∧
      (ofInt (648000 * 10 ^ places.val)).isFinite = true ∧
      (ofInt (648000 * 10 ^ places.val)).toRat = 648000 * 10 ^ places.val := by
  decide +kernel

/-- Up to 180 degrees the seconds as a double are not more than what 180 degrees make. -/
theorem seconds_bounds {degrees : Double} (h : degrees.isFinite = true)
    (hdegrees : |degrees.toRat| ≤ 180) :
    (degrees.abs * 3600).isFinite = true ∧ 0 ≤ (degrees.abs * 3600).toRat ∧
      (degrees.abs * 3600).toRat ≤ 648000 := by
  have h3600 : (3600 : Double).isFinite = true ∧ (3600 : Double).toRat = 3600 :=
    toRat_ofNat (by decide)
  have habs : degrees.abs.isFinite = true := (isFinite_abs degrees).trans h
  have htop : (648000 : ℚ) ≤ 2 ^ 20 := by norm_num
  have hnonneg : 0 ≤ |degrees.toRat| * 3600 := mul_nonneg (abs_nonneg _) (by norm_num)
  have hle : |degrees.toRat| * 3600 ≤ 648000 := by linarith
  have hrounds : (degrees.abs * 3600).RoundsTo (degrees.abs.toRat * (3600 : Double).toRat) := by
    refine roundsTo_mul habs h3600.1 ?_
    rw [toRat_abs, h3600.2, abs_of_nonneg hnonneg]
    exact lt_twoTo_of_le_pow (hle.trans htop) (by decide)
  rw [toRat_abs, h3600.2] at hrounds
  have hbound := hrounds.le_natCast (n := 648000) (by decide) (by exact_mod_cast hle)
  exact ⟨hrounds.isFinite, hrounds.nonneg hnonneg, by exact_mod_cast hbound⟩

/-- Up to 180 degrees the product of doubles is finite and not more than what 180 degrees make. -/
theorem product_bounds {degrees : Double} {places : Nat} (h : degrees.isFinite = true)
    (hdegrees : |degrees.toRat| ≤ 180) (hplaces : places ≤ 14) :
    (product degrees places).isFinite = true ∧ 0 ≤ (product degrees places).toRat ∧
      (product degrees places).toRat ≤ 648000 * 10 ^ places := by
  obtain ⟨hscale, hvalue, hlast, hlastValue⟩ := small_steps ⟨places, Nat.lt_succ_of_le hplaces⟩
  obtain ⟨hfinite, hnonneg, hle⟩ := seconds_bounds h hdegrees
  have htop : (648000 * 10 ^ 14 : ℚ) ≤ 2 ^ 66 := by norm_num
  rw [product]
  generalize degrees.abs * 3600 = seconds at *
  have hpos : (0 : ℚ) < 10 ^ places := pow_pos (by norm_num) _
  have hpow : (10 : ℚ) ^ places ≤ 10 ^ 14 := pow_le_pow_right₀ (by norm_num) hplaces
  have hsteps : seconds.toRat * 10 ^ places ≤ 648000 * 10 ^ places :=
    mul_le_mul_of_nonneg_right hle hpos.le
  have hlimit : |seconds.toRat * 10 ^ places| < twoTo 1023 := by
    rw [abs_of_nonneg (mul_nonneg hnonneg hpos.le)]
    refine lt_twoTo_of_le_pow ((hsteps.trans ?_).trans htop) (by decide)
    exact mul_le_mul_of_nonneg_left hpow (by norm_num)
  have hrounds := roundsTo_mul hfinite hscale (by rwa [hvalue])
  rw [hvalue] at hrounds
  refine ⟨hrounds.isFinite, hrounds.nonneg (mul_nonneg hnonneg hpos.le), ?_⟩
  have hbound := hrounds.le_of_le hlast (by rwa [hlastValue])
  rwa [hlastValue] at hbound

theorem unroundedSteps_le {degrees : Double} {places : Nat} (decimal : Bool)
    (h : degrees.isFinite = true) (hdegrees : |degrees.toRat| ≤ 180) (hplaces : places ≤ 14) :
    unroundedSteps decimal places degrees ≤ (180 * stepsPerDegree decimal places : ℕ) := by
  have hpos : (0 : ℚ) < 10 ^ places := by positivity
  rw [unroundedSteps, stepsPerDegree]
  split
  · push_cast
    exact mul_le_mul_of_nonneg_right hdegrees hpos.le
  · have hle := (product_bounds h hdegrees hplaces).2.2
    push_cast
    linarith

/-! ### As it is written -/

theorem isFinite_of_degreesOf {c c' : Converter} {value : Value} {unit : Option String}
    {degrees : Double} (h : degreesOf c value unit = (.ok degrees, c')) :
    degrees.isFinite = true := by
  rw [degreesOf] at h
  split at h
  · simp at h
  · split at h
    · simp at h
    · split at h
      · next hfinite =>
        obtain ⟨hdegrees, -⟩ := Prod.mk.inj h
        exact Except.ok.inj hdegrees ▸ hfinite
      · simp at h

/-- The places that an angle is written with. -/
def AngleFormat.shownPlaces (format : AngleFormat) : Int :=
  format.places.getD (if format.decimal then defaultDegreesPlaces else defaultSecondsPlaces)

/-- A magnitude is written in decimal degrees, with the letter of its hemisphere. -/
theorem exists_decimal_eq {degrees : Double} {places : Nat} (letter : String)
    (h : degrees.isFinite = true) (hplaces : places ≤ 14) :
    ∃ (numeral : String) (steps : Nat), degrees.abs.fixed? places none = .ok numeral ∧
      IsRounded steps (unroundedSteps true places degrees) ∧
      ShowsAngle places letter steps true (numeral ++ "°" ++ letter) := by
  cases degrees with
  | nan | infinite => exact absurd h (by simp)
  | finite negative rank =>
    refine ⟨_, stepsAtPlaces rank places, fixed?_magnitude rank hplaces none, ?_, ?_⟩
    · have hrounded := isRounded_stepsAtPlaces rank places
      rw [zpow_neg, zpow_natCast, div_inv_eq_mul] at hrounded
      rwa [unroundedSteps, if_pos rfl, abs_toRat_finite]
    · obtain ⟨d, htext, hpositive, hmagnitude⟩ :=
        exists_numeral_fixedDigits false (stepsAtPlaces rank places) places
      refine .decimal d hpositive ?_ hmagnitude
      have hfield : (padLeft (Option.getD none 0 : Int).toNat '0'
          (fixedDigits (stepsAtPlaces rank places) places)).toList = d.mantissa := by
        rw [← htext, padLeft_toList, show (Option.getD none 0 : Int).toNat = 0 from rfl,
          Nat.zero_sub]
        rfl
      rw [String.toList_append, String.toList_append, List.append_assoc, hfield]
      rfl

/-- An angle of at most 180 degrees is written, in steps that its magnitude is rounded to. -/
theorem exists_withHemisphere_eq {degrees : Double} {format : AngleFormat} {places : Nat}
    (positive negative : String) (h : degrees.isFinite = true) (hdegrees : |degrees.toRat| ≤ 180)
    (hformat : format.shownPlaces = places) (hplaces : places ≤ 14) :
    ∃ (text : String) (steps : Nat), withHemisphere format positive negative degrees = .ok text ∧
      IsRounded steps (unroundedSteps format.decimal places degrees) ∧
      ShowsAngle places (if 0 ≤ degrees.toRat then positive else negative) steps format.decimal
        text := by
  have hletter : (if Double.le 0 degrees then positive else negative) =
      if 0 ≤ degrees.toRat then positive else negative := by
    have hzero : (0 : Double).isFinite = true ∧ (0 : Double).toRat = 0 :=
      toRat_ofNat (by decide)
    simp only [le_iff_toRat_le hzero.1 h, hzero.2]
  rw [withHemisphere, hletter]
  generalize (if 0 ≤ degrees.toRat then positive else negative) = letter
  obtain ⟨decimal, asked⟩ := format
  cases decimal with
  | true =>
    obtain ⟨numeral, steps, hnumeral, hsteps, hshows⟩ := exists_decimal_eq letter h hplaces
    refine ⟨_, steps, ?_, hsteps, hshows⟩
    rw [if_pos rfl, show asked.getD defaultDegreesPlaces = places from hformat, hnumeral]
    rfl
  | false =>
    obtain ⟨hfinite, hnonneg, -⟩ := product_bounds h hdegrees hplaces
    obtain ⟨total, htotal⟩ := exists_isRounded hnonneg
    have hdegrees : IsTotal places total (.double degrees) := ⟨hfinite, htotal⟩
    obtain ⟨angle, numeral, hnumeral, htext, hsteps⟩ := exists_sexagesimal_eq hplaces hdegrees rfl
    refine ⟨numeral ++ letter, total, ?_, htotal, .sexagesimal angle ?_ hsteps⟩
    · rw [if_neg (by simp), show asked.getD defaultSecondsPlaces = places from hformat, hnumeral]
      rfl
    · rw [String.toList_append, htext]

/-- **A longitude is shown within 180 degrees.** Up to fourteen places every angle that can be
brought into degrees is brought above -180 degrees and up to 180 degrees, and written as the number
of steps that its magnitude is rounded to, with a letter for its sign. These never make more than
180 degrees. They make just 180 degrees if the magnitude is at most half a step below, whatever its
sign: so what is just above -180 degrees is written as 180 degrees west. -/
theorem longitude_range (c : Converter) (format : AngleFormat) (value : Value)
    (unit : Option String) {places : Nat} (hformat : format.shownPlaces = places)
    (hplaces : places ≤ 14) :
    (∀ e c', degreesOf c value unit = (.error e, c') →
      longitude c format value unit = (.error e, c')) ∧
    ∀ degrees c', degreesOf c value unit = (.ok degrees, c') →
      let wrapped := wrapLongitude degrees
      let limit := 180 * stepsPerDegree format.decimal places
      (wrapped.isFinite = true ∧ -180 < wrapped.toRat ∧ wrapped.toRat ≤ 180) ∧
      ∃ (text : String) (steps : Nat), longitude c format value unit = (.ok text, c') ∧
        ShowsAngle places (if 0 ≤ wrapped.toRat then "E" else "W") steps format.decimal text ∧
        IsRounded steps (unroundedSteps format.decimal places wrapped) ∧ steps ≤ limit ∧
        (steps = limit ↔ (limit : ℚ) - 1 / 2 ≤ unroundedSteps format.decimal places wrapped) := by
  refine ⟨fun e c' hdegrees ↦ by rw [longitude, hdegrees], fun degrees c' hdegrees ↦ ?_⟩
  have hbounds := wrapLongitude_bounds (isFinite_of_degreesOf hdegrees)
  have hmagnitude : |(wrapLongitude degrees).toRat| ≤ 180 :=
    abs_le.2 ⟨hbounds.2.1.le, hbounds.2.2⟩
  obtain ⟨text, steps, htext, hsteps, hshows⟩ :=
    exists_withHemisphere_eq "E" "W" hbounds.1 hmagnitude hformat hplaces
  have hlimit := unroundedSteps_le format.decimal hbounds.1 hmagnitude hplaces
  have heven : 180 * stepsPerDegree format.decimal places % 2 = 0 := by omega
  refine ⟨hbounds, text, steps, ?_, hshows, hsteps, hsteps.le hlimit, hsteps.eq_iff heven hlimit⟩
  rw [longitude, hdegrees]
  show (longitudeText format degrees, c') = (.ok text, c')
  rw [longitudeText, htext]
  rfl

/-- Just above -180 degrees, in degrees, minutes and seconds. -/
theorem longitude_range_west :
    let c : Converter := { registry := ⟨⟨[("deg", .double 0.017453292519943295)], by decide⟩, ∅⟩ }
    let value := Value.ofDouble (-179.99999999)
    (AngleFormat.shownPlaces {} = (1 : ℕ) ∧ 1 ≤ 14 ∧
        (degreesOf c value "deg").1 = .ok (-179.99999999)) ∧
      ∃ (text : String) (steps : Nat),
        longitude c {} value "deg" = (.ok text, (degreesOf c value "deg").2) ∧
          ShowsAngle 1 "W" steps false text ∧ steps = 180 * 36000 := by
  intro c value
  have hdegrees : (degreesOf c value "deg").1 = .ok (-179.99999999) := by decide +kernel
  have hwest : ¬0 ≤ (wrapLongitude (-179.99999999)).toRat := by decide +kernel
  have hhalf : 180 * 36000 - 1 / 2 ≤ unroundedSteps false 1 (wrapLongitude (-179.99999999)) := by
    decide +kernel
  have hresult : degreesOf c value "deg" = (.ok (-179.99999999), (degreesOf c value "deg").2) := by
    rw [← hdegrees, Prod.mk.eta]
  obtain ⟨-, text, steps, htext, hshows, -, -, hlimit⟩ :=
    (@longitude_range c {} value "deg" 1 rfl (by decide)).2 _ _ hresult
  rw [if_neg hwest] at hshows
  exact ⟨⟨rfl, by decide, hdegrees⟩, text, steps, htext, hshows, hlimit.2 (by exact_mod_cast hhalf)⟩

/-- What is above -180 degrees may be written as 180 degrees west, in either rendering, though -180
degrees itself is written as 180 degrees east. -/
theorem longitude_half_circle_west :
    let c : Converter := { registry := ⟨⟨[("deg", .double 0.017453292519943295)], by decide⟩, ∅⟩ }
    (longitude c {} (.ofDouble (-179.99999999)) "deg").1 = .ok "180°00'00.0\"W" ∧
      (longitude c { decimal := true } (.ofDouble (-179.99999999)) "deg").1 = .ok "180.0000°W" ∧
      (longitude c {} (.ofDouble (-180)) "deg").1 = .ok "180°00'00.0\"E" := by
  decide +kernel

end Rendering

end Metrology
