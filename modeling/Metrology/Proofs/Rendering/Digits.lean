import Metrology.Proofs.Rendering.Reading
import Metrology.Proofs.Rendering.Rounding

/-!
# How many digits a plain number has

A number in plain digits shows a whole number of steps, and has few digits if there are few steps
(`Numeral.Shows.hasDigits`). The steps are those of its places, of which there are as many as its
digits need, but no fewer than none.

So only a whole number may have more digits than it was rounded to. It has them where the decimal is
not a double: then the double nearest to it is written in full (`plain_digits`).
-/

namespace Metrology

namespace Text

/-! ### The value of digits -/

variable {cs : List Char}

theorem digit_le_nine {c : Char} (h : isDigit c = true) : c.toNat - '0'.toNat ≤ 9 := by
  simp only [isDigit, Char.le_def, UInt32.le_iff_toNat_le, Bool.and_eq_true, decide_eq_true_eq] at h
  have htop : c.toNat ≤ 57 := h.2
  have hzero : '0'.toNat = 48 := rfl
  omega

theorem eq_zero_of_digit_eq_zero {c : Char} (h : isDigit c = true)
    (hzero : c.toNat - '0'.toNat = 0) : c = '0' := by
  simp only [isDigit, Char.le_def, UInt32.le_iff_toNat_le, Bool.and_eq_true, decide_eq_true_eq] at h
  have hlow : '0'.toNat ≤ c.toNat := h.1
  exact Char.toNat_inj.1 (by omega)

theorem digitsValue_cons (c : Char) (cs : List Char) :
    digitsValue (c :: cs) = (c.toNat - '0'.toNat) * 10 ^ cs.length + digitsValue cs := by
  rw [← List.singleton_append, digitsValue_append]
  simp [digitsValue]

theorem digitsValue_lt (h : ∀ c ∈ cs, isDigit c = true) : digitsValue cs < 10 ^ cs.length := by
  induction cs with
  | nil => exact Nat.one_pos
  | cons c cs ih =>
    rw [List.forall_mem_cons] at h
    have hdigit := Nat.mul_le_mul_right (10 ^ cs.length) (digit_le_nine h.1)
    have hrest := ih h.2
    rw [digitsValue_cons, List.length_cons, pow_succ]
    omega

theorem eq_zero_of_digitsValue_eq_zero (h : ∀ c ∈ cs, isDigit c = true)
    (hzero : digitsValue cs = 0) : ∀ c ∈ cs, c = '0' := by
  induction cs with
  | nil => exact fun _ hc ↦ absurd hc List.not_mem_nil
  | cons c cs ih =>
    rw [List.forall_mem_cons] at h ⊢
    rw [digitsValue_cons, Nat.add_eq_zero_iff, Nat.mul_eq_zero] at hzero
    refine ⟨eq_zero_of_digit_eq_zero h.1 (hzero.1.resolve_right ?_), ih h.2 hzero.2⟩
    exact (Nat.pow_pos (by decide)).ne'

theorem digitsValue_dropWhile (cs : List Char) :
    digitsValue (cs.dropWhile (· == '0')) = digitsValue cs := by
  induction cs with
  | nil => rfl
  | cons c cs ih =>
    by_cases hzero : c = '0'
    · rw [List.dropWhile_cons_of_pos (by simp [hzero]), ih, digitsValue_cons, hzero, Nat.sub_self,
        Nat.zero_mul, Nat.zero_add]
    · rw [List.dropWhile_cons_of_neg (by simp [hzero])]

/-- Digits that do not begin with a zero denote at least a power of ten. -/
theorem le_digitsValue {c : Char} (h : isDigit c = true) (hzero : c ≠ '0') :
    10 ^ cs.length ≤ digitsValue (c :: cs) := by
  have hpos : 0 < c.toNat - '0'.toNat :=
    Nat.pos_of_ne_zero fun h' ↦ hzero (eq_zero_of_digit_eq_zero h h')
  rw [digitsValue_cons]
  exact (Nat.le_mul_of_pos_left _ hpos).trans (Nat.le_add_right _ _)

/-- Digits of a value that is few steps of a power of ten end in zeros. -/
theorem eq_zero_of_mem_drop (hdigits : ∀ c ∈ cs, isDigit c = true) {n i j k : Nat} (hk : 1 ≤ k)
    (hvalue : digitsValue cs * 10 ^ i = n * 10 ^ j) (hn : n ≤ 10 ^ k) :
    ∀ c ∈ (cs.dropWhile (· == '0')).drop k, c = '0' := by
  have hsub := List.dropWhile_sublist (l := cs) (· == '0')
  have hhead : ∀ c ∈ (cs.dropWhile (· == '0')).head?, c ≠ '0' := fun c hc ↦ by
    have hnot := List.head?_dropWhile_not (· == '0') cs
    rw [Option.mem_def.1 hc] at hnot
    simpa using hnot
  rw [← digitsValue_dropWhile] at hvalue
  generalize cs.dropWhile (· == '0') = ds at *
  have hds : ∀ c ∈ ds, isDigit c = true := fun c hc ↦ hdigits c (hsub.subset hc)
  rcases Nat.lt_or_ge k ds.length with hlong | hshort
  · obtain ⟨c, rest, rfl⟩ := List.exists_cons_of_length_pos (Nat.zero_lt_of_lt hlong)
    have hlarge : 10 ^ rest.length ≤ digitsValue (c :: rest) :=
      le_digitsValue (hds c List.mem_cons_self) (hhead c rfl)
    rw [List.length_cons] at hlong
    -- the value is divisible by the power of ten of the digits that are left
    have hlength : rest.length + i ≤ k + j := by
      refine (Nat.pow_le_pow_iff_right (a := 10) (by decide)).1 ?_
      rw [pow_add, pow_add]
      exact (Nat.mul_le_mul_right _ hlarge).trans (hvalue ▸ Nat.mul_le_mul_right _ hn)
    have hdvd : 10 ^ (rest.length + 1 - k) ∣ digitsValue (c :: rest) := by
      refine Nat.dvd_of_mul_dvd_mul_right (Nat.pow_pos (n := i) (by decide : 0 < 10)) ?_
      rw [hvalue, ← pow_add]
      rcases Nat.lt_or_ge j (rest.length + 1 - k + i) with hlt | hge
      · have htop : 10 ^ (k + j) ≤ n * 10 ^ j := by
          rw [← hvalue, show k + j = rest.length + i by omega, pow_add]
          exact Nat.mul_le_mul_right _ hlarge
        have hexact : n * 10 ^ j = 10 ^ (k + j) :=
          le_antisymm (pow_add 10 k j ▸ Nat.mul_le_mul_right _ hn) htop
        rw [hexact]
        exact pow_dvd_pow 10 (by omega)
      · exact (pow_dvd_pow 10 hge).mul_left n
    have hlast : ∀ d ∈ (c :: rest).drop k, isDigit d = true := fun d hd ↦
      hds d (List.mem_of_mem_drop hd)
    refine eq_zero_of_digitsValue_eq_zero hlast ?_
    have hrest := digitsValue_lt hlast
    rw [← List.take_append_drop k (c :: rest), digitsValue_append] at hdvd
    rw [List.length_drop, List.length_cons] at hdvd hrest
    exact Nat.eq_zero_of_dvd_of_lt ((Nat.dvd_add_right (Nat.dvd_mul_left _ _)).1 hdvd) hrest
  · rw [List.drop_eq_nil_of_le hshort]
    exact fun _ hc ↦ absurd hc List.not_mem_nil

end Text

namespace Rendering

open Double Text

/-! ### Digits of a text -/

/-- The digits of a text from the first one on that is not zero. -/
def significantDigits (text : String) : List Char :=
  (text.toList.filter isDigit).dropWhile (· == '0')

/-- A text has zeros only after so many significant digits. -/
def HasDigits (digits : Int) (text : String) : Prop :=
  ∀ c ∈ (significantDigits text).drop digits.toNat, c = '0'

instance (digits : Int) (text : String) : Decidable (HasDigits digits text) :=
  List.decidableBAll (· = '0') ((significantDigits text).drop digits.toNat)

/-- A text with a point ends neither in a zero nor in the point. -/
def IsTidy (text : String) : Prop :=
  '.' ∈ text.toList → ∀ c ∈ text.toList.getLast?, c ≠ '0' ∧ c ≠ '.'

namespace Numeral

variable {d : Numeral} {text : String} {negative : Bool} {magnitude : ℚ}

theorem filter_isDigit_mantissa (d : Numeral) :
    d.mantissa.filter isDigit = d.whole ++ d.fraction := by
  have hsign : (signText d.negative).filter isDigit = [] := by
    rw [signText]
    split <;> rfl
  have hfraction : (fractionText d.fraction).filter isDigit = d.fraction := by
    rw [fractionText]
    split
    · next h => exact (List.isEmpty_iff.1 h).symm
    · rw [List.filter_cons_of_neg (by decide), List.filter_eq_self.2 d.isDigit_fraction]
  rw [mantissa, List.filter_append, List.filter_append, hsign, hfraction,
    List.filter_eq_self.2 d.isDigit_whole, List.nil_append]

theorem Shows.isTidy (h : d.Shows text negative magnitude) (htrimmed : d.IsTrimmed) :
    IsTidy text := by
  intro hpoint c hc
  rw [h.toList_eq] at hpoint hc
  rcases hfraction : d.fraction with _ | ⟨f, fs⟩
  · exact absurd hpoint (point_notMem_mantissa hfraction)
  · rw [mantissa, fractionText, hfraction, List.isEmpty_cons, if_neg (by simp),
      List.getLast?_append, List.getLast?_cons_cons, ← hfraction] at hc
    have hlast : c ∈ d.fraction.getLast? := by
      rw [hfraction] at hc ⊢
      simpa using hc
    refine ⟨htrimmed c hlast, ?_⟩
    rintro rfl
    exact absurd (d.isDigit_fraction '.' (List.mem_of_getLast? hlast)) (by decide)

/-- A numeral of few steps of a power of ten has few digits. -/
theorem Shows.hasDigits {n : Nat} {k digits : Int} (h : d.Shows text negative (n * 10 ^ k))
    (hdigits : 1 ≤ digits) (hn : n ≤ 10 ^ digits.toNat) : HasDigits digits text := by
  have hvalue : digitsValue (d.whole ++ d.fraction) * 10 ^ (-k).toNat =
      n * 10 ^ (k.toNat + d.fraction.length) := by
    have hmagnitude := h.magnitude_eq
    rw [Numeral.magnitude, div_eq_iff (by positivity)] at hmagnitude
    have hpower : (10 : ℚ) ^ k * 10 ^ (-k).toNat = 10 ^ k.toNat := by
      rw [← zpow_natCast, ← zpow_natCast, ← zpow_add₀ (by norm_num)]
      congr 1
      omega
    have hcast : ((digitsValue (d.whole ++ d.fraction) * 10 ^ (-k).toNat : ℕ) : ℚ) =
        (n * 10 ^ (k.toNat + d.fraction.length) : ℕ) := by
      push_cast
      rw [hmagnitude, pow_add, ← hpower]
      ring
    exact_mod_cast hcast
  have hall : ∀ c ∈ d.whole ++ d.fraction, isDigit c = true :=
    List.forall_mem_append.2 ⟨d.isDigit_whole, d.isDigit_fraction⟩
  rw [HasDigits, significantDigits, h.toList_eq, filter_isDigit_mantissa]
  exact eq_zero_of_mem_drop hall (by omega) hvalue hn

end Numeral

/-! ### Plain numbers -/

/-- A number is written as the whole number of steps of its places that is nearest to it. -/
theorem exists_steps_of_trimmed {x : Double} {places : Int} {t : String} (hx : x.isFinite = true)
    (h : x.trimmed? places = .ok t) : ∃ (steps : Nat) (d : Numeral),
      IsRounded steps (|x.toRat| / 10 ^ (-min places exactPlaces)) ∧
      d.Shows t x.isNegative (steps * 10 ^ (-min places exactPlaces)) ∧ d.IsTrimmed := by
  cases x with
  | nan | infinite => exact absurd hx (by simp)
  | finite negative rank =>
    obtain ⟨-, d, hd, htrimmed⟩ := exists_shows_of_trimmed h
    refine ⟨_, d, ?_, hd, htrimmed⟩
    rw [abs_toRat_finite]
    exact isRounded_stepsAtPlaces rank _

/-- The places of a plain number, which is not zero, come from its exponent. -/
theorem exists_steps_of_plainRounded {rounded : Double} {digits : Int} {t : String}
    (hrounded : rounded.isFiniteNonzero = true) (h : plainRounded rounded digits = .ok t) :
    ∃ (e places : Int) (steps : Nat) (d : Numeral), rounded.decimalExponent = .ok e ∧
      places = min (max 0 (digits - 1 - e)) exactPlaces ∧
      IsRounded steps (|rounded.toRat| / 10 ^ (-places)) ∧
      d.Shows t rounded.isNegative (steps * 10 ^ (-places)) ∧ d.IsTrimmed := by
  obtain ⟨hfinite, hzero⟩ := Bool.and_eq_true_iff.1 hrounded
  rw [Bool.not_eq_true'] at hzero
  rw [plainRounded, hfinite, hzero, Bool.not_true, if_neg (by simp), if_neg (by simp)] at h
  obtain ⟨e, he, h⟩ := exists_of_bind_eq_ok h
  obtain ⟨steps, d, hsteps, hd, htrimmed⟩ := exists_steps_of_trimmed hfinite h
  exact ⟨e, _, steps, d, he, rfl, hsteps, hd, htrimmed⟩

/-- A whole number from `2 ^ 53` on is written in full, where the digits it was rounded to are lost
because the decimal is not a double. -/
structure IsWrittenInFull (rounded : Double) (digits exponent : Int) (text : String) : Prop where
  digits_le : digits ≤ exponent
  whole : ∃ n : Nat, |rounded.toRat| = n ∧ twoTo 53 ≤ n ∧ ¬tenTo (exponent + 1 - digits).toNat ∣ n ∧
    ∃ d : Numeral, d.Shows text rounded.isNegative n

theorem cast_ten_pow_toNat {digits : Int} (hdigits : 1 ≤ digits) :
    ((10 ^ digits.toNat : ℕ) : ℚ) = 10 ^ digits := by
  rw [Nat.cast_pow, Nat.cast_ofNat, ← zpow_natCast, Int.toNat_of_nonneg (by omega)]

section Steps

variable {x rounded : Double} {digits e e' : Int} {n steps : Nat}

/-- Places for the digits of a number hold few steps. -/
theorem steps_le_of_lt (hdigits : 1 ≤ digits) (hrounded : rounded.isFiniteNonzero = true)
    (he' : rounded.decimalExponent = .ok e') (hlt : e' < digits) {places : Int}
    (hplaces : places = min (max 0 (digits - 1 - e')) exactPlaces)
    (hsteps : IsRounded steps (|rounded.toRat| / 10 ^ (-places))) : steps ≤ 10 ^ digits.toNat := by
  refine hsteps.le ?_
  rw [cast_ten_pow_toNat hdigits, div_le_iff₀ (ten_zpow_pos _), ← zpow_add₀ (by norm_num)]
  exact (decimalExponent_bounds_abs hrounded he').1.le.trans
    (zpow_le_zpow_right₀ (by norm_num) (by omega))

/-- Whole numbers of steps that are less than a step apart are the same. -/
theorem eq_of_abs_mul_sub_lt {m n : Nat} {step : ℚ} (hstep : 0 < step)
    (h : |m * step - n * step| < step) : m = n := by
  rw [← sub_mul, abs_mul, abs_of_pos hstep, mul_lt_iff_lt_one_left hstep] at h
  obtain ⟨hbelow, habove⟩ := abs_lt.1 (show |(m : Int) - n| < 1 by exact_mod_cast h)
  omega

variable (h : Rounding x rounded digits e n) (hx : x.isFiniteNonzero = true)

include h hx

theorem Rounding.steps_le : n ≤ 10 ^ digits.toNat := by
  have hvalue := h.value_le hx
  rw [show e + 1 = digits + (e + 1 - digits) by ring, zpow_add₀ (by norm_num),
    show digits + (e + 1 - digits) - digits = e + 1 - digits by ring,
    mul_le_mul_iff_left₀ (ten_zpow_pos _), ← cast_ten_pow_toNat h.digits_pos] at hvalue
  exact_mod_cast hvalue

/-- A number that is rounded to places, but has no place to show, has few digits before the
point. -/
theorem Rounding.steps_le_of_le (hle : e < digits) (hsteps : IsRounded steps |rounded.toRat|) :
    steps ≤ 10 ^ digits.toNat := by
  have hstep : (10 : ℚ) ^ (e + 1 - digits) ≤ 1 := zpow_le_one_of_nonpos₀ (by norm_num) (by omega)
  have hvalue : (n * 10 ^ (e + 1 - digits) : ℚ) ≤ (10 ^ digits.toNat : ℕ) :=
    (h.value_le hx).trans (cast_ten_pow_toNat h.digits_pos ▸
      zpow_le_zpow_right₀ (by norm_num) (by omega))
  have hclose := (abs_le.1 (h.abs_rounded_sub_value_le hx)).2
  have heven : 10 ^ digits.toNat % 2 = 0 := by
    rw [Nat.pow_mod, show 10 % 2 = 0 from rfl, Nat.zero_pow (by have := h.digits_pos; omega)]
  by_contra hlt
  rw [not_le] at hlt
  rcases Nat.eq_or_lt_of_le hlt with heq | hgt
  · -- the next whole number is odd, so that halfway to it is not enough
    have hodd := (abs_lt.1 (hsteps.2 (by omega))).2
    rw [← heq] at hodd
    push_cast at hodd hvalue
    linarith
  · have hfar : ((10 ^ digits.toNat + 2 : ℕ) : ℚ) ≤ steps := by exact_mod_cast hgt
    have hnear := (abs_le.1 hsteps.1).2
    push_cast at hfar hvalue
    linarith

variable {t : String} {d : Numeral} (hsteps : IsRounded steps |rounded.toRat|)
  (hd : d.Shows t rounded.isNegative steps)

include hsteps hd

/-- Where the rounded number is a whole number of steps, it is the decimal, and that is what is
written. -/
theorem Rounding.hasDigits_of_eq {j m : Nat} (hj : e + 1 - digits = j)
    (hm : |rounded.toRat| = m * 10 ^ j) : HasDigits digits t := by
  have hclose := h.abs_rounded_sub_value_le hx
  have hpow : (0 : ℚ) < 10 ^ j := by positivity
  rw [hj, zpow_natCast, hm] at hclose
  obtain rfl : m = n := eq_of_abs_mul_sub_lt hpow (by linarith)
  obtain rfl : steps = m * 10 ^ j := by
    refine hsteps.unique (isRounded_of_lt ?_)
    rw [hm]
    push_cast
    simp
  rw [show ((m * 10 ^ j : ℕ) : ℚ) = m * 10 ^ (j : Int) by push_cast; rw [zpow_natCast]] at hd
  exact hd.hasDigits h.digits_pos (h.steps_le hx)

/-- Where it is none, the decimal is too large for a double, and so is the number it is rounded
to. -/
theorem Rounding.isWrittenInFull {j : Nat} (hle : digits ≤ e) (hj : e + 1 - digits = j)
    (hwhole : ¬∃ m : Nat, |rounded.toRat| = m * 10 ^ j) : IsWrittenInFull rounded digits e t := by
  have hrounds := h.roundsTo
  rw [hj, zpow_natCast, show (n * 10 ^ j : ℚ) = (n * 10 ^ j : ℕ) by push_cast; rfl] at hrounds
  have hlarge : twoTo 53 ≤ |rounded.toRat| := by
    rw [← toRat_abs]
    refine hrounds.eq_natCast_or_le.resolve_left fun heq ↦ hwhole ⟨n, ?_⟩
    rw [← toRat_abs, heq]
    push_cast
    rfl
  obtain ⟨N, hN⟩ := exists_abs_toRat_eq_natCast (Bool.and_eq_true_iff.1 (h.isFiniteNonzero hx)).1
    (le_trans (by exact_mod_cast (by decide : twoTo 52 ≤ twoTo 53)) hlarge)
  have hexact : steps = N := hsteps.unique (isRounded_of_lt (by simp [hN]))
  rw [hN] at hlarge
  refine ⟨hle, N, hN, by exact_mod_cast hlarge, ?_, d, hexact ▸ hd⟩
  rintro ⟨m, hm⟩
  refine hwhole ⟨m, ?_⟩
  rw [hN, hm, hj, Int.toNat_natCast, Nat.cast_mul, tenTo_eq, mul_comm]

/-- A number of so many digits before the point is a double, or it is not below `2 ^ 53`. -/
theorem Rounding.hasDigits_or_isWrittenInFull (hle : digits ≤ e) :
    HasDigits digits t ∨ IsWrittenInFull rounded digits e t := by
  obtain ⟨j, hj⟩ := Int.eq_ofNat_of_zero_le (show 0 ≤ e + 1 - digits by omega)
  by_cases hwhole : ∃ m : Nat, |rounded.toRat| = m * 10 ^ j
  · obtain ⟨m, hm⟩ := hwhole
    exact Or.inl (h.hasDigits_of_eq hx hsteps hd hj hm)
  · exact Or.inr (h.isWrittenInFull hx hsteps hd hle hj hwhole)

end Steps

/-- **A plain number has no more digits than asked for**, and no zeros at the end of its fraction.
The exception is a whole number that is not a double when rounded: the double nearest to it is
written in full. -/
theorem plain_digits {x : Double} {digits : Int} {t : String} (hx : x.isFinite = true)
    (h : plain (.double x) digits = .ok t) :
    IsTidy t ∧ (HasDigits digits t ∨
      ∃ rounded e, roundSignificant (.double x) digits = .ok rounded ∧
        x.decimalExponent = .ok e ∧ IsWrittenInFull rounded digits e t) := by
  obtain ⟨rounded, hrounded, hplain⟩ := exists_of_bind_eq_ok h
  have hplain := ok_of_mapError_eq_ok hplain
  rcases hzero : x.isZero with _ | _
  · have hx' : x.isFiniteNonzero = true := by simp [isFiniteNonzero, hx, hzero]
    obtain ⟨e, n, hrounding⟩ := exists_rounding hx' hrounded
    have hnonzero := hrounding.isFiniteNonzero hx'
    obtain ⟨e', places, steps, d, he', hplaces, hsteps, hd, htrimmed⟩ :=
      exists_steps_of_plainRounded hnonzero hplain
    refine ⟨hd.isTidy htrimmed, ?_⟩
    rcases lt_or_ge e' digits with hlt | hge
    · exact Or.inl (hd.hasDigits hrounding.digits_pos
        (steps_le_of_lt hrounding.digits_pos hnonzero he' hlt hplaces hsteps))
    · -- there is no place after the point
      obtain rfl : places = 0 := by
        rw [hplaces, exactPlaces]
        omega
      rw [neg_zero, zpow_zero, div_one] at hsteps
      rcases lt_or_ge e digits with hlt | hge
      · exact Or.inl (hd.hasDigits hrounding.digits_pos
          (hrounding.steps_le_of_le hx' hlt hsteps))
      · rw [neg_zero, zpow_zero, mul_one] at hd
        exact (hrounding.hasDigits_or_isWrittenInFull hx' hsteps hd hge).imp_right
          fun hfull ↦ ⟨rounded, e, hrounded, hrounding.exponent_eq, hfull⟩
  · -- zero stays as it is
    rw [roundSignificant_double (one_le_digits hrounded), roundDouble, hzero, Bool.true_or,
      if_pos rfl, arithmetic_ok] at hrounded
    obtain rfl := Except.ok.inj hrounded
    rw [plainRounded, hx, Bool.not_true, if_neg (by simp), if_pos hzero] at hplain
    obtain rfl := Except.ok.inj hplain
    refine ⟨fun hpoint ↦ absurd hpoint (by decide), Or.inl ?_⟩
    rw [HasDigits, show significantDigits "0" = [] by decide, List.drop_nil]
    exact List.forall_mem_nil _

/-- A small number to three digits. -/
theorem plain_digits_small : plain (.double 0.00120049) 3 = .ok "0.0012" ∧
    IsTidy "0.0012" ∧ HasDigits 3 "0.0012" := by
  have h : plain (.double 0.00120049) 3 = .ok "0.0012" := by decide +kernel
  obtain ⟨htidy, hdigits⟩ := plain_digits (by decide +kernel) h
  refine ⟨h, htidy, hdigits.resolve_right ?_⟩
  rintro ⟨rounded, e, -, he, hfull⟩
  obtain rfl : -3 = e := Except.ok.inj (by
    rw [← he]
    decide +kernel)
  exact absurd hfull.digits_le (by decide)

/-- Where three digits are asked for, twenty-three are written. -/
theorem plain_digits_lost : plain (.double 1e23) 3 = .ok "99999999999999991611392" ∧
    ¬HasDigits 3 "99999999999999991611392" := by
  decide +kernel

end Rendering

end Metrology
