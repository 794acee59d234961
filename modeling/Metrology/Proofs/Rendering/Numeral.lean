import Mathlib.Data.List.DropRight
import Mathlib.Data.List.TakeDrop
import Metrology.Proofs.Double.Decimal
import Metrology.Rendering.Quantity
import Metrology.Text.Literal

/-!
# The shape of rendered numbers

A `Numeral` is what a rendering of a finite number is made of: a sign, digits, a fraction and an
exponent, where the fraction and the exponent are written only if there are any.

* Its text is a literal, read as the number that its parts say (`Numeral.read?_text`), and none of
  its characters marks a compound unit (`Numeral.notMem_compoundMarks`).
* A finite double with a fixed number of places is a numeral, which shows the double rounded to
  these places (`exists_numeral_fixed`). Without the zeros at its end it shows the same
  (`Numeral.Shows.trimZeros`).
-/

namespace Metrology

namespace Text

/-! ### Digits -/

/-- The digits of a number as it is written. -/
theorem isDigit_of_mem_toString {n : Nat} {c : Char} (h : c ∈ (toString n).toList) :
    isDigit c = true := by
  have hdigit : c.isDigit = true := by
    rw [Nat.toString_eq_repr, Nat.toList_repr] at h
    exact Nat.isDigit_of_mem_toDigits (by decide) (by decide) h
  simpa [isDigit, Char.isDigit, Char.le_def] using hdigit

theorem toString_ne_nil (n : Nat) : (toString n).toList ≠ [] := by
  rw [Nat.toString_eq_repr, Nat.toList_repr]
  exact Nat.toDigits_ne_nil

theorem foldl_digits (t : List Char) (n : Nat) :
    t.foldl (fun n c ↦ 10 * n + (c.toNat - '0'.toNat)) n = n * 10 ^ t.length + digitsValue t := by
  induction t generalizing n with
  | nil => simp [digitsValue]
  | cons c t ih =>
    rw [digitsValue, List.foldl_cons, List.foldl_cons, ih, ih (10 * 0 + _), List.length_cons]
    ring

theorem digitsValue_append (s t : List Char) :
    digitsValue (s ++ t) = digitsValue s * 10 ^ t.length + digitsValue t := by
  rw [digitsValue, List.foldl_append]
  exact foldl_digits t _

theorem digitsValue_zeros (k : Nat) : digitsValue (List.replicate k '0') = 0 := by
  induction k with
  | zero => rfl
  | succ k ih =>
    rw [List.replicate_succ', digitsValue_append, ih]
    rfl

theorem digitsValue_append_zeros (s : List Char) (k : Nat) :
    digitsValue (s ++ List.replicate k '0') = digitsValue s * 10 ^ k := by
  rw [digitsValue_append, digitsValue_zeros, List.length_replicate, Nat.add_zero]

theorem isDigit_of_mem_zeros {k : Nat} {c : Char} (h : c ∈ List.replicate k '0') :
    isDigit c = true := by
  rw [List.eq_of_mem_replicate h]
  decide

theorem length_toString_le {n k : Nat} (hk : 0 < k) (h : n < tenTo k) :
    (toString n).toList.length ≤ k := by
  rw [Nat.toString_eq_repr, Nat.toList_repr]
  exact (Nat.length_toDigits_le_iff (by decide) hk).2 h

/-- The digits of a number denote it. -/
theorem digitsValue_toString (n : Nat) : digitsValue (toString n).toList = n := by
  rw [Nat.toString_eq_repr, Nat.toList_repr]
  exact Nat.ofDigitChars_toDigits (by decide) (by decide)

theorem wholeNumber?_toString (n : Nat) : wholeNumber? (toString n).toList = some n := by
  have hne : (toString n).toList.isEmpty = false := List.isEmpty_eq_false_iff.2 (toString_ne_nil n)
  have hall : (toString n).toList.all isDigit = true :=
    List.all_eq_true.2 fun _ hc ↦ isDigit_of_mem_toString hc
  rw [wholeNumber?, hne, hall, digitsValue_toString]
  rfl

/-- A digit is no sign. -/
theorem splitSign_of_isDigit {c : Char} (hdigit : isDigit c = true) (cs : List Char) :
    splitSign (c :: cs) = (false, c :: cs) := by
  have hminus : c ≠ '-' := fun h ↦ absurd hdigit (by rw [h]; decide)
  have hplus : c ≠ '+' := fun h ↦ absurd hdigit (by rw [h]; decide)
  simp [splitSign, hminus, hplus]

theorem splitSign_toString (n : Nat) :
    splitSign (toString n).toList = (false, (toString n).toList) := by
  rcases h : (toString n).toList with _ | ⟨c, cs⟩
  · exact absurd h (toString_ne_nil n)
  · exact splitSign_of_isDigit (@isDigit_of_mem_toString n c (h ▸ List.mem_cons_self)) cs

/-- A whole number is read as it is written. -/
theorem signedNumber?_toString (n : Int) : signedNumber? (toString n).toList = some n := by
  cases n with
  | ofNat n =>
    show signedNumber? (toString n).toList = some (n : Int)
    rw [signedNumber?, splitSign_toString]
    simp only [wholeNumber?_toString]
    rfl
  | negSucc n =>
    have htext : (toString (Int.negSucc n)).toList = '-' :: (toString (n + 1)).toList := by
      show ("-" ++ toString (n + 1)).toList = _
      rw [String.toList_append]
      rfl
    rw [htext, signedNumber?]
    simp only [splitSign, wholeNumber?_toString]
    rfl

/-- A run of digits ends where a character follows that is none. -/
theorem span_isDigit {digits rest : List Char} (hdigits : ∀ c ∈ digits, isDigit c = true)
    (hrest : ∀ c ∈ rest.head?, isDigit c = false) :
    (digits ++ rest).span isDigit = (digits, rest) := by
  have htake : rest.takeWhile isDigit = [] ∧ rest.dropWhile isDigit = rest := by
    rcases rest with _ | ⟨c, rest⟩
    · exact ⟨rfl, rfl⟩
    · have hc : isDigit c = false := hrest c rfl
      exact ⟨List.takeWhile_cons_of_neg (by simp [hc]), List.dropWhile_cons_of_neg (by simp [hc])⟩
  rw [List.span_eq_takeWhile_dropWhile, List.takeWhile_append_of_pos hdigits,
    List.dropWhile_append_of_pos hdigits, htake.1, htake.2, List.append_nil]

/-! ### Fields of digits -/

/-- Digits of a fixed number. -/
structure IsField (width : Nat) (digits : List Char) : Prop where
  length_eq : digits.length = width
  isDigit : ∀ c ∈ digits, isDigit c = true

theorem padLeft_toList (width : Nat) (c : Char) (s : String) :
    (Double.padLeft width c s).toList = List.replicate (width - s.toList.length) c ++ s.toList := by
  rw [Double.padLeft, String.toList_append, String.toList_ofList, String.length_toList]

/-- What is filled up is the front of a text. -/
theorem padLeft_append (width : Nat) (c : Char) (s t : String) :
    (Double.padLeft (width + t.toList.length) c (s ++ t)).toList =
      (Double.padLeft width c s).toList ++ t.toList := by
  rw [padLeft_toList, padLeft_toList, String.toList_append, List.length_append,
    Nat.add_sub_add_right, List.append_assoc]

theorem isDigit_of_mem_padLeft {width n : Nat} {c : Char}
    (h : c ∈ (Double.padLeft width '0' (toString n)).toList) : isDigit c = true := by
  rw [padLeft_toList, List.mem_append] at h
  exact h.elim isDigit_of_mem_zeros isDigit_of_mem_toString

theorem padLeft_ne_nil (width n : Nat) : (Double.padLeft width '0' (toString n)).toList ≠ [] := by
  rw [padLeft_toList]
  exact List.append_ne_nil_of_right_ne_nil _ (toString_ne_nil n)

/-- A number that is short enough fills a field with the zeros before it. -/
theorem isField_padLeft {n width : Nat} (hwidth : 0 < width) (h : n < tenTo width) :
    IsField width (Double.padLeft width '0' (toString n)).toList := by
  have hle := length_toString_le hwidth h
  refine ⟨?_, fun _ ↦ isDigit_of_mem_padLeft⟩
  rw [padLeft_toList, List.length_append, List.length_replicate]
  omega

theorem digitsValue_padLeft (width n : Nat) :
    digitsValue (Double.padLeft width '0' (toString n)).toList = n := by
  rw [padLeft_toList, digitsValue_append, digitsValue_zeros, digitsValue_toString, Nat.zero_mul,
    Nat.zero_add]

end Text

namespace Rendering

open Text

/-! ### Numerals -/

/-- The parts of a rendered number. -/
structure Numeral where
  negative : Bool
  whole : List Char
  fraction : List Char
  exponent : Int
  whole_ne_nil : whole ≠ []
  isDigit_whole : ∀ c ∈ whole, isDigit c = true
  isDigit_fraction : ∀ c ∈ fraction, isDigit c = true

/-- A minus sign, or nothing. -/
def signText (negative : Bool) : List Char := if negative then ['-'] else []

/-- A fraction after its point, or nothing. -/
def fractionText (fraction : List Char) : List Char :=
  if fraction.isEmpty then [] else '.' :: fraction

namespace Numeral

variable (d : Numeral)

/-- The numeral without its exponent. -/
def mantissa : List Char := signText d.negative ++ d.whole ++ fractionText d.fraction

/-- The numeral as it is written. -/
def text : List Char := d.mantissa ++ (powerText d.exponent false).toList

/-- The number that the digits denote, without sign and exponent. -/
def magnitude : ℚ := digitsValue (d.whole ++ d.fraction) / 10 ^ d.fraction.length

/-- The numeral without its exponent is a text, and has a sign and a magnitude. -/
structure Shows (text : String) (negative : Bool) (magnitude : ℚ) : Prop where
  toList_eq : text.toList = d.mantissa
  negative_eq : d.negative = negative
  magnitude_eq : d.magnitude = magnitude

/-- The fraction does not end in a zero. -/
def IsTrimmed : Prop := ∀ c ∈ d.fraction.getLast?, c ≠ '0'

theorem text_of_exponent_eq_zero {d : Numeral} (h : d.exponent = 0) : d.text = d.mantissa := by
  rw [text, h, powerText, if_pos rfl]
  exact List.append_nil _

/-- The numeral with an exponent. -/
def withExponent (exponent : Int) : Numeral := { d with exponent }

theorem exponent_eq (exponent : Int) :
    (powerText exponent false).toList =
      if exponent = 0 then [] else 'e' :: (toString exponent).toList := by
  rw [powerText]
  split
  · rfl
  · rw [if_neg (by simp), String.toList_append]
    rfl

theorem exponent?_powerText (exponent : Int) :
    exponent? (powerText exponent false).toList = some exponent := by
  rw [exponent_eq]
  split
  · next h => rw [h]; rfl
  · rw [exponent?, if_pos (Or.inl rfl), signedNumber?_toString]

theorem isDigit_head_powerText (exponent : Int) :
    ∀ c ∈ (powerText exponent false).toList.head?, isDigit c = false := by
  intro c hc
  rw [exponent_eq] at hc
  split at hc
  · exact absurd hc (by simp)
  · obtain rfl : 'e' = c := Option.some_inj.1 hc
    decide

/-- What follows the whole digits splits into the fraction and the exponent. -/
theorem splitFraction_fractionText :
    Literal.splitFraction (fractionText d.fraction ++ (powerText d.exponent false).toList) =
      (d.fraction, (powerText d.exponent false).toList) := by
  rcases hfraction : d.fraction with _ | ⟨c, cs⟩
  · -- the exponent does not begin with a point
    show Literal.splitFraction (powerText d.exponent false).toList = _
    rw [exponent_eq]
    split <;> rfl
  · have hspan := span_isDigit d.isDigit_fraction (isDigit_head_powerText d.exponent)
    rw [hfraction] at hspan
    exact hspan

/-- A numeral is read as the literal that its parts say. -/
theorem read?_text : Literal.read? d.text =
    some ⟨d.negative, digitsValue (d.whole ++ d.fraction), d.exponent - d.fraction.length⟩ := by
  obtain ⟨c, cs, hwhole⟩ := List.exists_cons_of_ne_nil d.whole_ne_nil
  let rest := fractionText d.fraction ++ (powerText d.exponent false).toList
  have hsign : splitSign d.text = (d.negative, d.whole ++ rest) := by
    rw [text, mantissa, List.append_assoc, List.append_assoc]
    rcases d.negative with _ | _
    · show splitSign (d.whole ++ rest) = _
      rw [hwhole]
      exact splitSign_of_isDigit (d.isDigit_whole c (hwhole ▸ List.mem_cons_self)) _
    · rfl
  have hrest : ∀ c ∈ rest.head?, isDigit c = false := by
    intro c hc
    rcases hfraction : d.fraction with _ | ⟨f, fs⟩
    · have hhead : c ∈ (powerText d.exponent false).toList.head? := by
        simpa [rest, fractionText, hfraction] using hc
      exact isDigit_head_powerText d.exponent c hhead
    · obtain rfl : '.' = c := by simpa [rest, fractionText, hfraction] using hc
      decide
  rw [Literal.read?, hsign]
  simp only [span_isDigit d.isDigit_whole hrest]
  rw [show Literal.splitFraction rest = _ from d.splitFraction_fractionText]
  simp only [exponent?_powerText]
  rw [hwhole]
  rfl

/-- The magnitude that a text shows is the one that is read from it. -/
theorem Shows.magnitude_of_read? {d : Numeral} {text : String} {negative : Bool} {magnitude : ℚ}
    (h : d.Shows text negative magnitude) {literal : Literal}
    (hread : Literal.read? text.toList = some literal) :
    magnitude = literal.digits * 10 ^ literal.exponent := by
  have hexponent : (d.withExponent 0).text = d.mantissa := text_of_exponent_eq_zero rfl
  have hliteral := (d.withExponent 0).read?_text
  rw [hexponent, ← h.toList_eq, hread] at hliteral
  obtain rfl := Option.some_inj.1 hliteral
  rw [← h.magnitude_eq, Numeral.magnitude]
  show _ = (digitsValue (d.whole ++ d.fraction) : ℚ) * 10 ^ (0 - (d.fraction.length : Int))
  rw [zero_sub, zpow_neg, zpow_natCast, div_eq_mul_inv]

/-- The characters of a numeral: digits, signs, the point and the mark of the exponent. -/
theorem isDigit_or_of_mem_text {c : Char} (h : c ∈ d.text) :
    isDigit c = true ∨ c = '-' ∨ c = '.' ∨ c = 'e' := by
  have hsigned : ∀ n : Int, c ∈ (toString n).toList → isDigit c = true ∨ c = '-' := by
    intro n hc
    cases n with
    | ofNat n => exact Or.inl (isDigit_of_mem_toString hc)
    | negSucc n =>
      have hc' : c ∈ ("-" ++ toString (n + 1)).toList := hc
      rw [String.toList_append, List.mem_append] at hc'
      exact hc'.symm.imp isDigit_of_mem_toString List.mem_singleton.1
  rw [text, mantissa, exponent_eq, List.mem_append, List.mem_append, List.mem_append] at h
  rcases h with ((hsign | hwhole) | hfraction) | hexponent
  · rw [signText] at hsign
    split at hsign
    · exact Or.inr (Or.inl (List.mem_singleton.1 hsign))
    · exact absurd hsign List.not_mem_nil
  · exact Or.inl (d.isDigit_whole c hwhole)
  · rw [fractionText] at hfraction
    split at hfraction
    · exact absurd hfraction List.not_mem_nil
    · rcases List.mem_cons.1 hfraction with hpoint | hdigit
      · exact Or.inr (Or.inr (Or.inl hpoint))
      · exact Or.inl (d.isDigit_fraction c hdigit)
  · split at hexponent
    · exact absurd hexponent List.not_mem_nil
    · rcases List.mem_cons.1 hexponent with hmark | hdigits
      · exact Or.inr (Or.inr (Or.inr hmark))
      · exact (hsigned d.exponent hdigits).imp_right Or.inl

/-- A numeral has no character that only a compound unit has. -/
theorem notMem_compoundMarks {c : Char} (h : c ∈ d.text) : .char c ∉ compoundMarks := by
  intro hmark
  rcases d.isDigit_or_of_mem_text h with hdigit | rfl | rfl | rfl
  · simp only [compoundMarks, List.mem_cons, List.not_mem_nil, or_false,
      CodePoint.char.injEq] at hmark
    rcases hmark with rfl | rfl | rfl | rfl | rfl <;> exact absurd hdigit (by decide)
  · exact absurd hmark (by decide)
  · exact absurd hmark (by decide)
  · exact absurd hmark (by decide)

/-! ### Zeros at the end -/

/-- A fraction without the zeros at its end, and a point without a fraction, are dropped. -/
theorem exists_rdropWhile {before fraction : List Char}
    (hbefore : ∀ h : before ≠ [], isDigit (before.getLast h) = true)
    (hfraction : ∀ c ∈ fraction, isDigit c = true) :
    ∃ kept k, fraction = kept ++ List.replicate k '0' ∧ (∀ c ∈ kept.getLast?, c ≠ '0') ∧
      List.rdropWhile (· == '.') (List.rdropWhile (· == '0') (before ++ '.' :: fraction)) =
        before ++ fractionText kept := by
  have hpoint : ∀ c, isDigit c = true → (c == '.') = false := by
    intro c hc
    refine beq_eq_false_iff_ne.2 fun h ↦ ?_
    exact absurd hc (by rw [h]; decide)
  induction fraction using List.reverseRecOn with
  | nil =>
    refine ⟨[], 0, rfl, fun _ hc ↦ absurd hc (by simp), ?_⟩
    have hself : List.rdropWhile (· == '.') before = before :=
      List.rdropWhile_eq_self_iff.2 fun h ↦ by simp [hpoint _ (hbefore h)]
    rw [List.rdropWhile_concat_neg _ _ _ (by decide), List.rdropWhile_concat_pos _ _ _ (by decide),
      hself]
    exact (List.append_nil _).symm
  | append_singleton fraction c ih =>
    rw [List.forall_mem_append] at hfraction
    have hc : isDigit c = true := hfraction.2 c (List.mem_singleton_self c)
    have hassoc : before ++ '.' :: (fraction ++ [c]) = before ++ '.' :: fraction ++ [c] := by
      rw [List.append_assoc, List.cons_append]
    rw [hassoc]
    by_cases hzero : c = '0'
    · obtain ⟨kept, k, hkept, hlast, htext⟩ := ih hfraction.1
      rw [List.rdropWhile_concat_pos _ _ _ (by simp [hzero])]
      refine ⟨kept, k + 1, ?_, hlast, htext⟩
      rw [hkept, hzero, List.append_assoc, List.replicate_succ']
    · refine ⟨fraction ++ [c], 0, (List.append_nil _).symm, fun c' hc' ↦ ?_, ?_⟩
      · obtain rfl : c = c' := by simpa using hc'
        exact hzero
      · rw [List.rdropWhile_concat_neg _ _ _ (by simp [hzero]),
          List.rdropWhile_concat_neg _ _ _ (by simp [hpoint c hc]), ← hassoc, fractionText,
          if_neg (by simp)]

variable {d}

theorem point_notMem_mantissa (h : d.fraction = []) : '.' ∉ d.mantissa := by
  rw [mantissa, h, show fractionText [] = [] from rfl, List.append_nil, List.mem_append]
  rintro (hsign | hwhole)
  · rw [signText] at hsign
    split at hsign
    · exact absurd hsign (by decide)
    · exact absurd hsign List.not_mem_nil
  · exact absurd (d.isDigit_whole _ hwhole) (by decide)

/-- Without the zeros at its end a numeral shows the same. -/
theorem Shows.trimZeros {numeral : String} {negative : Bool} {magnitude : ℚ}
    (h : d.Shows numeral negative magnitude) :
    ∃ d' : Numeral, d'.Shows (Double.trimZeros numeral) negative magnitude ∧ d'.IsTrimmed := by
  let before := signText d.negative ++ d.whole
  have hbefore : ∀ h : before ≠ [], isDigit (before.getLast h) = true := by
    intro hne
    rw [List.getLast_append_of_ne_nil hne d.whole_ne_nil]
    exact d.isDigit_whole _ (List.getLast_mem d.whole_ne_nil)
  rcases hfraction : d.fraction with _ | ⟨f, fs⟩
  · -- without a fraction there is no point
    rw [Double.trimZeros, h.toList_eq, if_neg (point_notMem_mantissa hfraction)]
    exact ⟨d, h, fun c hc ↦ absurd hc (by simp [hfraction])⟩
  · have htext : numeral.toList = before ++ '.' :: d.fraction := by
      rw [h.toList_eq, mantissa, hfraction]
      rfl
    have hmem : '.' ∈ numeral.toList := htext ▸ List.mem_append_right _ List.mem_cons_self
    obtain ⟨kept, k, hkept, hlast, htrimmed⟩ := exists_rdropWhile hbefore d.isDigit_fraction
    have hdigits : ∀ c ∈ kept, isDigit c = true := fun c hc ↦
      d.isDigit_fraction c (hkept ▸ List.mem_append_left _ hc)
    refine ⟨{ d with fraction := kept, isDigit_fraction := hdigits },
      ⟨?_, h.negative_eq, ?_⟩, hlast⟩
    · rw [Double.trimZeros, if_pos hmem, String.toList_ofList, htext, mantissa, ← htrimmed,
        List.rdropWhile, List.rdropWhile, List.reverse_reverse]
    · rw [← h.magnitude_eq, Numeral.magnitude, Numeral.magnitude, hkept, ← List.append_assoc,
        digitsValue_append_zeros, List.length_append, List.length_replicate, pow_add, Nat.cast_mul,
        Nat.cast_pow, Nat.cast_ofNat, mul_div_mul_right _ _ (by positivity)]

end Numeral

/-- Places are written after a point, if there are any. -/
theorem fractionText_of_isField {places : Nat} {digits : List Char} (h : IsField places digits)
    (hpos : 0 < places) : fractionText digits = '.' :: digits := by
  rw [fractionText, if_neg]
  rw [List.isEmpty_iff_length_eq_zero, h.length_eq]
  omega

/-- Steps with a number of places are digits, and that many digits after a point if there are to be
any. -/
theorem exists_numeral_fixedDigits (negative : Bool) (steps places : Nat) :
    ∃ d : Numeral, signText negative ++ (Double.fixedDigits steps places).toList = d.mantissa ∧
      d.negative = negative ∧ d.magnitude = steps / 10 ^ places := by
  have hwhole : ∀ c ∈ (toString (steps / tenTo places)).toList, isDigit c = true :=
    fun _ hc ↦ isDigit_of_mem_toString hc
  rw [Double.fixedDigits]
  rcases Nat.eq_zero_or_pos places with rfl | hpos
  · refine ⟨⟨negative, _, [], 0, toString_ne_nil _, hwhole,
      fun _ hc ↦ absurd hc List.not_mem_nil⟩, ?_, rfl, ?_⟩
    · rw [if_pos rfl]
      exact (List.append_nil _).symm
    · rw [Numeral.magnitude, List.append_nil, digitsValue_toString]
      show ((steps / 1 : ℕ) : ℚ) / 10 ^ 0 = steps / 10 ^ 0
      rw [Nat.div_one]
  · have hrest := isField_padLeft hpos (Nat.mod_lt steps (Double.tenTo_pos places))
    have hvalue := digitsValue_padLeft places (steps % tenTo places)
    refine ⟨⟨negative, _, _, 0, toString_ne_nil _, hwhole, hrest.isDigit⟩, ?_, rfl, ?_⟩
    · rw [if_neg hpos.ne', String.toList_append, String.toList_append, Numeral.mantissa,
        fractionText_of_isField hrest hpos, List.append_assoc, List.append_assoc]
      rfl
    · -- the whole digits and the fraction are the two parts of the steps
      rw [Numeral.magnitude, digitsValue_append, hrest.length_eq, digitsValue_toString, hvalue,
        show 10 ^ places = tenTo places from rfl, Nat.div_add_mod']

/-- A finite double with a fixed number of places shows the double rounded to these places. -/
theorem exists_numeral_fixed (negative : Bool) (rank : Fin rankCount) (places : Nat) :
    ∃ d : Numeral, d.Shows ((Double.finite negative rank).fixed places) negative
      (Double.roundedAt rank places) := by
  have hsign : (if negative then "-" else "").toList = signText negative := by
    cases negative <;> rfl
  obtain ⟨d, htext, hnegative, hmagnitude⟩ :=
    exists_numeral_fixedDigits negative (Double.stepsAtPlaces rank places) places
  refine ⟨d, ?_, hnegative, ?_⟩
  · rw [Double.fixed, String.toList_append, hsign, htext]
  · rw [hmagnitude, Double.roundedAt, zpow_neg, zpow_natCast, div_eq_mul_inv]

end Rendering

end Metrology
