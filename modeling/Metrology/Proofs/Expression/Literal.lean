import Metrology.Proofs.Double.Reading
import Metrology.Proofs.Expression.Value
import Metrology.Proofs.Rendering.Numeral

/-!
# Literals in an expression

A grammar for literals, given by rules in which each text comes with the number that it denotes:
`IsSign`, `IsUnsigned` and `IsExponent` for the three parts, `DenotesNumber` for the whole. The
scanner accepts what the rules derive and nothing else, and reads the number that they give
(`denotesNumber_iff`).

A part of an expression that has no registered multiplier is a number exactly if it is a literal
with a magnitude below the limit of the doubles, and then it is the double nearest to what the
literal denotes. Any other part cannot be resolved (`Expression.leaf_outcome`).

Each rule ends where a character stands that cannot go on with it, so of the rest of a text only its
first character matters. The lemmas about the scanner therefore have a condition on the head of what
follows.
-/

namespace Metrology

namespace Text

variable {cs rest digits : List Char} {negative : Bool} {magnitude : ℚ} {exponent : Int}

/-! ### The grammar -/

/-- An optional sign, and whether it is a minus. -/
inductive IsSign : List Char → Bool → Prop
  | absent : IsSign [] false
  | plus : IsSign ['+'] false
  | minus : IsSign ['-'] true

/-- Digits with an optional point, before or after which there may be no digit, but not both. -/
inductive IsUnsigned : List Char → ℚ → Prop
  | whole {digits : List Char} (nonempty : digits ≠ [])
      (isDigit_of_mem : ∀ c ∈ digits, isDigit c = true) : IsUnsigned digits (digitsValue digits)
  | pointed {whole fraction : List Char} (nonempty : whole ≠ [] ∨ fraction ≠ [])
      (isDigit_of_mem_whole : ∀ c ∈ whole, isDigit c = true)
      (isDigit_of_mem_fraction : ∀ c ∈ fraction, isDigit c = true) :
      IsUnsigned (whole ++ '.' :: fraction)
        (digitsValue whole + digitsValue fraction / 10 ^ fraction.length)

/-- An optional exponent: a mark, an optional sign and at least one digit. -/
inductive IsExponent : List Char → Int → Prop
  | absent : IsExponent [] 0
  | present {mark : Char} {sign digits : List Char} {negative : Bool}
      (mark_eq : mark = 'e' ∨ mark = 'E') (isSign : IsSign sign negative) (nonempty : digits ≠ [])
      (isDigit_of_mem : ∀ c ∈ digits, isDigit c = true) :
      IsExponent (mark :: (sign ++ digits))
        (if negative then -(digitsValue digits : Int) else digitsValue digits)

/-- A literal, whether it has a minus sign, and the magnitude that it denotes. -/
inductive DenotesNumber : List Char → Bool → ℚ → Prop
  | intro {sign unsigned power : List Char} {negative : Bool} {mantissa : ℚ} {exponent : Int}
      (isSign : IsSign sign negative) (isUnsigned : IsUnsigned unsigned mantissa)
      (isExponent : IsExponent power exponent) :
      DenotesNumber (sign ++ unsigned ++ power) negative (mantissa * 10 ^ exponent)

/-! ### Signs -/

theorem exists_isSign (cs : List Char) :
    ∃ sign, IsSign sign (splitSign cs).1 ∧ cs = sign ++ (splitSign cs).2 := by
  fun_cases splitSign cs
  case case1 => exact ⟨_, .minus, rfl⟩
  case case2 => exact ⟨_, .plus, rfl⟩
  case case3 => exact ⟨_, .absent, rfl⟩

theorem splitSign_append {sign : List Char} (h : IsSign sign negative)
    (hrest : ∀ c ∈ rest.head?, isDigit c = true ∨ c = '.') :
    splitSign (sign ++ rest) = (negative, rest) := by
  cases h with
  | plus | minus => rfl
  | absent =>
    rcases rest with _ | ⟨c, rest⟩
    · rfl
    · rcases hrest c rfl with hdigit | rfl
      · exact splitSign_of_isDigit hdigit rest
      · rfl

theorem isDigit_head (hdigits : ∀ c ∈ digits, isDigit c = true) :
    ∀ c ∈ digits.head?, isDigit c = true ∨ c = '.' := by
  intro c hc
  exact Or.inl (hdigits c (List.mem_of_mem_head? hc))

/-! ### Exponents -/

theorem wholeNumber?_eq_some_iff {n : Nat} :
    wholeNumber? cs = some n ↔ cs ≠ [] ∧ (∀ c ∈ cs, isDigit c = true) ∧ digitsValue cs = n := by
  rw [wholeNumber?]
  split
  · next h =>
    rw [Bool.or_eq_true, List.isEmpty_iff, Bool.not_eq_true', List.all_eq_false] at h
    rcases h with hempty | ⟨c, hc, hdigit⟩
    · simp [hempty]
    · exact iff_of_false (by simp) fun h ↦ hdigit (h.2.1 c hc)
  · next h =>
    rw [Bool.or_eq_true, List.isEmpty_iff, Bool.not_eq_true', not_or, Bool.not_eq_false,
      List.all_eq_true] at h
    rw [Option.some_inj]
    exact ⟨fun hn ↦ ⟨h.1, h.2, hn⟩, fun hn ↦ hn.2.2⟩

theorem signedNumber?_of_splitSign (h : splitSign cs = (negative, digits)) :
    signedNumber? cs =
      (wholeNumber? digits).map fun n : Nat ↦ if negative then -(n : Int) else n := by
  rw [signedNumber?, h]
  show Option.map _ (do return Int.ofNat (← wholeNumber? digits)) = _
  cases wholeNumber? digits <;> rfl

theorem exponent?_eq_some_iff : exponent? cs = some exponent ↔ IsExponent cs exponent := by
  constructor
  · intro h
    rcases cs with _ | ⟨mark, cs⟩
    · obtain rfl : 0 = exponent := Option.some_inj.1 h
      exact .absent
    · rw [exponent?] at h
      split at h
      · next hmark =>
        obtain ⟨sign, hsign, heq⟩ := exists_isSign cs
        rw [signedNumber?_of_splitSign (Prod.mk.eta (p := splitSign cs)).symm,
          Option.map_eq_some_iff] at h
        obtain ⟨n, hn, rfl⟩ := h
        obtain ⟨hne, hdigits, rfl⟩ := wholeNumber?_eq_some_iff.1 hn
        nth_rewrite 1 [heq]
        exact .present hmark hsign hne hdigits
      · exact absurd h (by simp)
  · rintro (_ | ⟨hmark, hsign, hne, hdigits⟩)
    · rfl
    · rw [exponent?, if_pos hmark,
        signedNumber?_of_splitSign (splitSign_append hsign (isDigit_head hdigits)),
        wholeNumber?_eq_some_iff.2 ⟨hne, hdigits, rfl⟩, Option.map_some]

theorem IsExponent.head (h : IsExponent cs exponent) :
    ∀ c ∈ cs.head?, isDigit c = false ∧ c ≠ '.' := by
  rintro c hc
  cases h with
  | absent => exact absurd hc (by simp)
  | present hmark hsign hne hdigits =>
    obtain rfl := Option.some_inj.1 hc
    rcases hmark with rfl | rfl <;> decide

/-! ### Mantissas -/

/-- Digits before and after a point, as one number. -/
theorem digitsValue_fraction (whole fraction : List Char) :
    (digitsValue (whole ++ fraction) : ℚ) / 10 ^ fraction.length =
      digitsValue whole + digitsValue fraction / 10 ^ fraction.length := by
  have hne : (10 : ℚ) ^ fraction.length ≠ 0 := by positivity
  rw [digitsValue_append, Nat.cast_add, Nat.cast_mul, Nat.cast_pow, Nat.cast_ofNat, add_div,
    mul_div_cancel_right₀ _ hne]

/-- How the front of a text splits into digits, an optional fraction and the rest. -/
structure Splits (cs whole fraction rest : List Char) : Prop where
  fraction_eq : Literal.splitFraction (cs.span isDigit).2 = (fraction, rest)
  whole_eq : (cs.span isDigit).1 = whole
  nonempty : (whole.isEmpty && fraction.isEmpty) = false

theorem Splits.exists_isUnsigned {whole fraction : List Char} (h : Splits cs whole fraction rest) :
    ∃ unsigned, cs = unsigned ++ rest ∧
      IsUnsigned unsigned (digitsValue (whole ++ fraction) / 10 ^ fraction.length) := by
  obtain ⟨hfraction, hwhole, hne⟩ := h
  rw [List.span_eq_takeWhile_dropWhile] at hfraction hwhole
  have hdigits : ∀ c ∈ whole, isDigit c = true := fun c hc ↦ List.mem_takeWhile_imp (hwhole ▸ hc)
  have hcs : cs = whole ++ cs.dropWhile isDigit := by
    rw [← hwhole, List.takeWhile_append_dropWhile]
  generalize cs.dropWhile isDigit = follows at hfraction hcs
  have hsplit : (∃ tail, follows = '.' :: tail ∧ tail.span isDigit = (fraction, rest)) ∨
      (fraction = [] ∧ follows = rest) := by
    rw [Literal.splitFraction.eq_def] at hfraction
    split at hfraction
    · next tail heq => exact Or.inl ⟨tail, heq, hfraction⟩
    · obtain ⟨rfl, rfl⟩ := Prod.mk.inj hfraction
      exact Or.inr ⟨rfl, rfl⟩
  rcases hsplit with ⟨tail, rfl, hspan⟩ | ⟨rfl, rfl⟩
  · rw [List.span_eq_takeWhile_dropWhile] at hspan
    obtain ⟨rfl, rfl⟩ := Prod.mk.inj hspan
    refine ⟨whole ++ '.' :: tail.takeWhile isDigit, ?_, ?_⟩
    · rw [List.append_assoc, List.cons_append, List.takeWhile_append_dropWhile, hcs]
    · rw [digitsValue_fraction]
      refine .pointed ?_ hdigits fun c ↦ List.mem_takeWhile_imp
      simpa only [Bool.and_eq_false_iff, List.isEmpty_eq_false_iff] using hne
  · refine ⟨whole, hcs, ?_⟩
    rw [List.append_nil, List.length_nil, pow_zero, div_one]
    exact .whole (by simpa using hne) hdigits

theorem IsUnsigned.exists_splits (h : IsUnsigned cs magnitude)
    (hrest : ∀ c ∈ rest.head?, isDigit c = false ∧ c ≠ '.') :
    ∃ whole fraction, Splits (cs ++ rest) whole fraction rest ∧
      magnitude = digitsValue (whole ++ fraction) / 10 ^ fraction.length := by
  have hnone : ∀ c ∈ rest.head?, isDigit c = false := fun c hc ↦ (hrest c hc).1
  cases h with
  | whole hne hdigits =>
    refine ⟨cs, [], ⟨?_, ?_, by simpa using hne⟩, by simp⟩ <;> rw [span_isDigit hdigits hnone]
    rcases rest with _ | ⟨c, rest⟩
    · rfl
    · have hc : c ≠ '.' := (hrest c rfl).2
      simp [Literal.splitFraction, hc]
  | @pointed whole fraction hne hwhole hfraction =>
    have hspan : (whole ++ '.' :: fraction ++ rest).span isDigit =
        (whole, '.' :: (fraction ++ rest)) := by
      rw [List.append_assoc, List.cons_append]
      exact span_isDigit hwhole (by simp [isDigit])
    refine ⟨whole, fraction, ⟨?_, ?_, ?_⟩, (digitsValue_fraction whole fraction).symm⟩
    · rw [hspan]
      exact span_isDigit hfraction hnone
    · rw [hspan]
    · simpa only [Bool.and_eq_false_iff, List.isEmpty_eq_false_iff] using hne

theorem IsUnsigned.head (h : IsUnsigned cs magnitude) (rest : List Char) :
    ∀ c ∈ (cs ++ rest).head?, isDigit c = true ∨ c = '.' := by
  intro c hc
  cases h with
  | whole hne hdigits =>
    rw [List.head?_append_of_ne_nil _ hne] at hc
    exact isDigit_head hdigits c hc
  | @pointed whole fraction _ hwhole _ =>
    rcases whole with _ | ⟨d, whole⟩
    · exact Or.inr (Option.some_inj.1 hc).symm
    · exact Or.inl (hwhole c (Option.some_inj.1 hc ▸ List.mem_cons_self))

/-! ### Reading -/

/-- A literal with a fraction has as many powers of ten less. -/
theorem magnitude_sub_length (n k : Nat) (exponent : Int) :
    (n : ℚ) * 10 ^ (exponent - k) = n / 10 ^ k * 10 ^ exponent := by
  rw [zpow_sub₀ (by norm_num), zpow_natCast]
  ring

theorem denotesNumber_of_read? {l : Literal} (h : Literal.read? cs = some l) :
    DenotesNumber cs l.negative (l.digits * 10 ^ l.exponent) := by
  obtain ⟨sign, hsign, hcs⟩ := exists_isSign cs
  rw [Literal.read?] at h
  generalize splitSign cs = split at h hsign hcs
  obtain ⟨negative, unsigned⟩ := split
  simp only at h hsign hcs
  rcases hfraction : Literal.splitFraction (unsigned.span isDigit).2 with ⟨fraction, power⟩
  rw [hfraction] at h
  simp only at h
  split at h
  · exact absurd h (by simp)
  · next hne =>
    obtain ⟨exponent, hexponent, rfl⟩ := Option.map_eq_some_iff.1 h
    have hsplits : Splits unsigned (unsigned.span isDigit).1 fraction power :=
      ⟨hfraction, rfl, eq_false_of_ne_true hne⟩
    obtain ⟨mantissa, hmantissa, hunsigned⟩ := hsplits.exists_isUnsigned
    rw [magnitude_sub_length, hcs]
    nth_rewrite 1 [hmantissa]
    rw [← List.append_assoc]
    exact .intro hsign hunsigned (exponent?_eq_some_iff.1 hexponent)

theorem DenotesNumber.exists_read? (h : DenotesNumber cs negative magnitude) :
    ∃ l, Literal.read? cs = some l ∧ l.negative = negative ∧
      (l.digits : ℚ) * 10 ^ l.exponent = magnitude := by
  obtain @⟨sign, unsigned, power, negative, mantissa, exponent, hsign, hunsigned, hexponent⟩ := h
  obtain ⟨whole, fraction, hsplits, rfl⟩ := hunsigned.exists_splits hexponent.head
  refine ⟨⟨negative, digitsValue (whole ++ fraction), exponent - fraction.length⟩, ?_, rfl,
    magnitude_sub_length _ _ _⟩
  rw [List.append_assoc, Literal.read?, splitSign_append hsign (hunsigned.head power)]
  simp only [hsplits.fraction_eq, hsplits.whole_eq, hsplits.nonempty,
    exponent?_eq_some_iff.2 hexponent]
  rfl

/-- **The scanner reads the grammar**: it accepts what the rules derive, with the same number. -/
theorem denotesNumber_iff : DenotesNumber cs negative magnitude ↔
    ∃ l, Literal.read? cs = some l ∧ l.negative = negative ∧
      (l.digits : ℚ) * 10 ^ l.exponent = magnitude := by
  constructor
  · exact DenotesNumber.exists_read?
  · rintro ⟨l, hread, rfl, rfl⟩
    exact denotesNumber_of_read? hread

end Text

/-! ### Parts that are not registered -/

namespace Expression

open Text

variable {registry : Registry} {expression : RawText} {part : List CodePoint}

/-- A part of an expression that is a literal: characters only, which the grammar derives. -/
def DenotesNumber (part : List CodePoint) (negative : Bool) (magnitude : ℚ) : Prop :=
  ∃ cs, RawText.chars? part = some cs ∧ Text.DenotesNumber cs negative magnitude

/-- The literal that is read is the one that the grammar derives. -/
theorem denotesNumber_iff {negative : Bool} {magnitude : ℚ} :
    DenotesNumber part negative magnitude ↔
      ∃ l, literal? part = some l ∧ l.negative = negative ∧
        (l.digits : ℚ) * 10 ^ l.exponent = magnitude := by
  simp only [DenotesNumber, Text.denotesNumber_iff, literal?, Option.bind_eq_some_iff]
  constructor
  · rintro ⟨cs, hcs, l, hl, h⟩
    exact ⟨l, ⟨cs, hcs, hl⟩, h⟩
  · rintro ⟨l, ⟨cs, hcs, hl⟩, h⟩
    exact ⟨cs, hcs, l, hl, h⟩

/-- A literal is a number if its double is finite, the one nearest to what it denotes. -/
theorem leaf_eq_ok_iff (h : registry.linear? ⟨part⟩ = none) {x : Scalar} :
    leaf registry expression part = .ok x ↔
      ∃ negative magnitude y, DenotesNumber part negative magnitude ∧ magnitude < Double.limit ∧
        y.IsNearest (Double.sign negative * magnitude) ∧ y.isNegative = negative ∧
        x = .double y := by
  constructor
  · intro hleaf
    rcases leaf_eq_ok hleaf with hlinear | ⟨-, l, hread, hfinite, rfl⟩
    · rw [h] at hlinear
      exact absurd hlinear (by simp)
    · have hlimit := Double.isFinite_ofDecimal_iff.1 hfinite
      obtain ⟨hnearest, hsign⟩ := Double.isNearest_ofDecimal l.negative hlimit
      exact ⟨_, _, _, denotesNumber_iff.2 ⟨l, hread, rfl, rfl⟩, hlimit, hnearest, hsign, rfl⟩
  · rintro ⟨negative, magnitude, y, hdenotes, hlimit, hnearest, hsign, rfl⟩
    obtain ⟨l, hread, rfl, rfl⟩ := denotesNumber_iff.1 hdenotes
    have hdouble : l.toDouble = y := (Double.ofDecimal_eq_iff hlimit).2 ⟨hnearest, hsign⟩
    simp only [leaf, h, hread, hdouble, hnearest.isFinite, if_true]

/-- The only failure of a leaf is that the part cannot be resolved. -/
theorem exists_fault_of_leaf_eq_error {error : UnitError}
    (h : leaf registry expression part = .error error) :
    ∃ fault, (fault = .unknownPart ∨ fault = .nonlinearPart) ∧
      error = .unresolved fault ⟨part⟩ expression := by
  rw [leaf] at h
  split at h
  · exact absurd h (by simp)
  · split at h
    · exact absurd h (by simp)
    · exact ⟨_, .inl rfl, (Except.error.inj h).symm⟩
  · split at h
    · exact ⟨_, .inr rfl, (Except.error.inj h).symm⟩
    · exact ⟨_, .inl rfl, (Except.error.inj h).symm⟩

/-- **A part that is not registered is a literal or cannot be resolved.** It is a number exactly if
it is a literal below the limit, namely the double nearest to what the literal denotes, with its
sign; and there is no failure but that of a part that cannot be resolved. -/
theorem leaf_outcome (h : registry.linear? ⟨part⟩ = none) :
    ((∃ x, leaf registry expression part = .ok x) ↔
      ∃ negative magnitude, DenotesNumber part negative magnitude ∧ magnitude < Double.limit) ∧
    (∀ x, leaf registry expression part = .ok x ↔
      ∃ negative magnitude y, DenotesNumber part negative magnitude ∧ magnitude < Double.limit ∧
        y.IsNearest (Double.sign negative * magnitude) ∧ y.isNegative = negative ∧
        x = .double y) ∧
    ∀ error, leaf registry expression part = .error error →
      error.className = "UnresolvableUnitError" ∧
        ∃ fault, error = .unresolved fault ⟨part⟩ expression := by
  refine ⟨⟨fun ⟨x, hx⟩ ↦ ?_, fun ⟨negative, magnitude, hdenotes, hlimit⟩ ↦ ?_⟩,
    fun x ↦ leaf_eq_ok_iff h, fun error herror ↦ ?_⟩
  · obtain ⟨negative, magnitude, -, hdenotes, hlimit, -⟩ := (leaf_eq_ok_iff h).1 hx
    exact ⟨negative, magnitude, hdenotes, hlimit⟩
  · obtain ⟨l, -, rfl, rfl⟩ := denotesNumber_iff.1 hdenotes
    obtain ⟨hnearest, hsign⟩ := Double.isNearest_ofDecimal l.negative hlimit
    exact ⟨_, (leaf_eq_ok_iff h).2 ⟨_, _, _, hdenotes, hlimit, hnearest, hsign, rfl⟩⟩
  · obtain ⟨fault, hfault, rfl⟩ := exists_fault_of_leaf_eq_error herror
    exact ⟨by rcases hfault with rfl | rfl <;> rfl, fault, rfl⟩

/-- Without registered units `.5e-3` is the double nearest to a two-thousandth. -/
theorem leaf_outcome_literal :
    (∅ : Registry).linear? ".5e-3" = none ∧
      leaf ∅ "1 .5e-3" (RawText.ofString ".5e-3").points =
        .ok (.double (Double.ofDecimal false 5 (-4))) := by
  have hlinear : (∅ : Registry).linear? ".5e-3" = none := rfl
  have hread : literal? (RawText.ofString ".5e-3").points = some ⟨false, 5, -4⟩ := by decide
  have hlimit : ((5 : ℕ) : ℚ) * 10 ^ (-4 : Int) < Double.limit :=
    calc ((5 : ℕ) : ℚ) * 10 ^ (-4 : Int) < 10 ^ (0 : Int) := by norm_num
      _ < Double.limit := Double.ten_zpow_lt_limit (by norm_num)
  obtain ⟨hnearest, hsign⟩ := Double.isNearest_ofDecimal false hlimit
  exact ⟨hlinear, ((leaf_outcome hlinear).2.1 _).2
    ⟨false, _, _, denotesNumber_iff.2 ⟨_, hread, rfl, rfl⟩, hlimit, hnearest, hsign, rfl⟩⟩

end Expression

end Metrology
