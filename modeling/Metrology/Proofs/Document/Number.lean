import Metrology.Document.Reader
import Metrology.Document.Writer
import Metrology.Proofs.Double.Shortest
import Metrology.Proofs.Rendering.Numeral

/-!
# Numbers are read as they were written

A whole number is written as its digits and read as one, unless it has too many digits
(`readUnsigned_toString`). The text of a double is its shortest decimal, laid out in one of two
ways; a text `Denotes` a value if it is read as the double nearest to that value, and both layouts
denote the value of the decimal (`denotes_text`). Since that lies in the cell of the double, the
double comes back (`readSimple_writeNumber`).

All this depends on what follows: a number ends where the reader finds a character that does not
belong to one, which is what the writer puts after a value (`Ends`).
-/

namespace Metrology

open Text

namespace Text

/-! ### Digits -/

variable {n : Nat}

/-- A number other than zero is written without zeros before it. -/
theorem head_toString (h : n ≠ 0) : ∃ c cs, (toString n).toList = c :: cs ∧ c ≠ '0' := by
  rw [Nat.toString_eq_repr, Nat.toList_repr]
  induction n using Nat.strongRecOn with
  | ind n ih =>
    rcases Nat.lt_or_ge n 10 with hlt | hge
    · rw [Nat.toDigits_of_lt_base hlt]
      have hfew : ∀ k < 10, k ≠ 0 → Nat.digitChar k ≠ '0' := by decide
      exact ⟨_, [], rfl, hfew n hlt h⟩
    · obtain ⟨c, cs, hcs, hc⟩ := ih (n / 10) (by omega) (by omega)
      rw [Nat.toDigits_of_base_le (by decide) hge, hcs]
      exact ⟨c, _, rfl, hc⟩

/-! ### Zeros at the end -/

/-- Digits are the digits without zeros at the end, and those zeros. -/
theorem exists_trimmedDigits (digits : List Char) :
    ∃ k, digits = Double.trimmedDigits digits ++ List.replicate k '0' := by
  have hzeros : ∀ c ∈ digits.reverse.takeWhile (· == '0'), c = '0' := fun c hc ↦ by
    simpa using List.mem_takeWhile_imp hc
  refine ⟨(digits.reverse.takeWhile (· == '0')).length, ?_⟩
  calc digits = (digits.reverse.takeWhile (· == '0') ++
        digits.reverse.dropWhile (· == '0')).reverse := by
        rw [List.takeWhile_append_dropWhile, List.reverse_reverse]
    _ = Double.trimmedDigits digits ++ (digits.reverse.takeWhile (· == '0')).reverse :=
        List.reverse_append
    _ = _ := by rw [List.eq_replicate_of_mem hzeros, List.reverse_replicate, List.length_replicate]

end Text

namespace Document

/-! ### Where a number ends -/

/-- What the writer puts after a value: a comma, a new line, or nothing. -/
def Ends (rest : List Char) : Prop := ∀ c ∈ rest.head?, c = ',' ∨ c = '\n'

variable {negative : Bool} {whole fraction tail rest cs : List Char}

theorem Ends.isDigit_head (h : Ends rest) : ∀ c ∈ rest.head?, isDigit c = false := by
  intro c hc
  rcases h c hc with rfl | rfl <;> decide

theorem Ends.readFraction_eq (h : Ends rest) : readFraction rest = ([], rest) := by
  rcases rest with _ | ⟨c, rest⟩
  · rfl
  · rcases h c rfl with rfl | rfl <;> rfl

theorem Ends.readExponent_eq (h : Ends rest) : readExponent rest = (none, rest) := by
  rcases rest with _ | ⟨c, rest⟩
  · rfl
  · rcases h c rfl with rfl | rfl <;> rfl

/-! ### Parts of a number -/

/-- The digits before the point: a zero alone, or digits that do not begin with one. -/
structure IsWhole (whole : List Char) : Prop where
  isDigit : ∀ c ∈ whole, isDigit c = true
  head : whole = ['0'] ∨ ∃ c cs, whole = c :: cs ∧ c ≠ '0'

theorem isWhole_toString (n : Nat) : IsWhole (toString n).toList where
  isDigit _ hc := isDigit_of_mem_toString hc
  head := by
    rcases Nat.eq_zero_or_pos n with rfl | hpos
    · exact Or.inl rfl
    · exact Or.inr (head_toString hpos.ne')

theorem isDigit_of_mem_zero : ∀ c ∈ ['0'], isDigit c = true := List.forall_mem_singleton.2 rfl

theorem isWhole_zero : IsWhole ['0'] := ⟨isDigit_of_mem_zero, Or.inl rfl⟩

/-- The whole digits are read up to their end. -/
theorem readUnsigned_whole (hwhole : IsWhole whole) (htail : ∀ c ∈ tail.head?, isDigit c = false) :
    readUnsigned negative (whole ++ tail) = finishNumber negative whole tail := by
  rcases hwhole.head with rfl | ⟨c, cs, rfl, hzero⟩
  · rfl
  · have hspan := span_isDigit hwhole.isDigit htail
    rw [List.cons_append] at hspan ⊢
    rw [readUnsigned.eq_2 _ _ (fun _ h ↦ hzero (List.cons.inj h).1), hspan]
    rfl

theorem readFraction_point (hfraction : ∀ c ∈ fraction, isDigit c = true) (hne : fraction ≠ [])
    (htail : ∀ c ∈ tail.head?, isDigit c = false) :
    readFraction ('.' :: fraction ++ tail) = (fraction, tail) := by
  obtain ⟨c, cs, rfl⟩ := List.exists_cons_of_ne_nil hne
  have hspan := span_isDigit hfraction htail
  rw [List.cons_append] at hspan
  rw [List.cons_append, List.cons_append, readFraction, if_pos (hfraction c List.mem_cons_self),
    hspan]

/-- An exponent is read as it is written. -/
theorem readExponent_exponentText (width : Nat) (exponent : Int)
    (hrest : ∀ c ∈ rest.head?, isDigit c = false) :
    readExponent ((Double.exponentText width exponent).toList ++ rest) = (some exponent, rest) := by
  have htext : (Double.exponentText width exponent).toList ++ rest =
      'e' :: (if exponent < 0 then '-' else '+') ::
        ((Double.padLeft width '0' (toString exponent.natAbs)).toList ++ rest) := by
    rw [Double.exponentText, String.toList_append]
    split <;> rfl
  have hvalue := digitsValue_padLeft width exponent.natAbs
  have hne := List.isEmpty_eq_false_iff.2 (padLeft_ne_nil width exponent.natAbs)
  have hdigits := fun c ↦ @isDigit_of_mem_padLeft width exponent.natAbs c
  generalize (Double.padLeft width '0' (toString exponent.natAbs)).toList = digits at *
  have hsigned : ∀ negative sign,
      splitSign (sign :: (digits ++ rest)) = (negative, digits ++ rest) →
      readSignedDigits (sign :: (digits ++ rest)) =
        some (if negative then -(exponent.natAbs : Int) else exponent.natAbs, rest) := by
    intro negative sign hsign
    rw [readSignedDigits, hsign]
    simp only [span_isDigit hdigits hrest, hne, hvalue]
    simp
  rw [htext, readExponent, if_pos (Or.inl rfl)]
  rcases Int.lt_or_le exponent 0 with hneg | hnonneg
  · rw [if_pos hneg, hsigned true '-' rfl]
    simp only [if_true, Prod.mk.injEq, Option.some.injEq, and_true]
    omega
  · rw [if_neg (Int.not_lt.2 hnonneg), hsigned false '+' rfl]
    simp only [Bool.false_eq_true, if_false, Prod.mk.injEq, Option.some.injEq, and_true]
    omega

/-! ### Doubles -/

/-- A text that is read as the double nearest to a value, wherever it ends. -/
structure Denotes (cs : List Char) (value : ℚ) : Prop where
  head : ∃ c ∈ cs.head?, isDigit c = true
  reads : ∀ negative rest, Ends rest → ∃ (digits : Nat) (exponent : Int),
    readUnsigned negative (cs ++ rest) =
      .ok (.double (Double.ofDecimal negative digits exponent), rest) ∧
    digits * 10 ^ exponent = value

theorem IsWhole.head? (h : IsWhole whole) (tail : List Char) :
    ∃ c ∈ (whole ++ tail).head?, Text.isDigit c = true := by
  rcases h.head with rfl | ⟨c, cs, rfl, -⟩
  · exact ⟨'0', rfl, rfl⟩
  · exact ⟨c, rfl, h.isDigit c List.mem_cons_self⟩

/-- Whole digits and a fraction after a point. -/
theorem denotes_point (hwhole : IsWhole whole) (hfraction : ∀ c ∈ fraction, isDigit c = true)
    (hne : fraction ≠ []) {value : ℚ}
    (hvalue : digitsValue (whole ++ fraction) * 10 ^ (-fraction.length : Int) = value) :
    Denotes (whole ++ '.' :: fraction) value where
  head := hwhole.head? _
  reads negative rest hrest := by
    refine ⟨digitsValue (whole ++ fraction), -fraction.length, ?_, hvalue⟩
    rw [List.append_assoc, readUnsigned_whole hwhole (by simp [isDigit]), finishNumber,
      readFraction_point hfraction hne hrest.isDigit_head]
    simp [hrest.readExponent_eq, hne]

theorem finishNumber_exponent {exponent : Int}
    (hfraction : readFraction tail = (fraction, cs))
    (hexponent : readExponent cs = (some exponent, rest)) :
    finishNumber negative whole tail = .ok (.double (Double.ofDecimal negative
      (digitsValue (whole ++ fraction)) (exponent - fraction.length)), rest) := by
  rw [finishNumber, hfraction]
  simp [hexponent]

/-- A digit, a fraction if there is one, and an exponent. -/
theorem denotes_exponential {c : Char} (hdigits : ∀ d ∈ c :: cs, isDigit d = true) (hc : c ≠ '0')
    (width : Nat) (exponent : Int) : Denotes (Double.exponential width (c :: cs) exponent).toList
      (digitsValue (c :: cs) * 10 ^ (exponent - cs.length)) := by
  have hwhole : IsWhole [c] := ⟨fun d hd ↦ hdigits d (List.mem_singleton.1 hd ▸ List.mem_cons_self),
    Or.inr ⟨c, [], rfl, hc⟩⟩
  have hfraction : ∀ d ∈ cs, isDigit d = true := fun d hd ↦ hdigits d (List.mem_cons_of_mem c hd)
  obtain ⟨text, htext⟩ : ∃ text, (Double.exponentText width exponent).toList = 'e' :: text := by
    rw [Double.exponentText, String.toList_append]
    split <;> exact ⟨_, rfl⟩
  have hlist : (Double.exponential width (c :: cs) exponent).toList =
      [c] ++ (Rendering.fractionText cs ++ 'e' :: text) := by
    rw [← htext]
    rcases cs with _ | ⟨d, cs⟩
    · exact (String.toList_append ..).trans (by simp [Rendering.fractionText])
    · exact (String.toList_append ..).trans (by simp [Rendering.fractionText])
  have hmark : ∀ rest, readFraction (Rendering.fractionText cs ++ 'e' :: text ++ rest) =
      (cs, 'e' :: text ++ rest) := by
    intro rest
    rcases cs with _ | ⟨d, cs⟩
    · rfl
    · rw [List.append_assoc]
      exact readFraction_point hfraction (by simp) (by simp [isDigit])
  have htail : ∀ rest, ∀ d ∈ (Rendering.fractionText cs ++ 'e' :: text ++ rest).head?,
      isDigit d = false := by
    intro rest
    rcases cs with _ | ⟨d, cs⟩ <;> simp [Rendering.fractionText, isDigit]
  rw [hlist]
  refine ⟨hwhole.head? _, fun negative rest hrest ↦
    ⟨digitsValue ([c] ++ cs), exponent - cs.length, ?_, rfl⟩⟩
  have hexponent := readExponent_exponentText width exponent hrest.isDigit_head
  rw [htext] at hexponent
  rw [List.append_assoc [c], readUnsigned_whole hwhole (htail rest)]
  exact finishNumber_exponent (hmark rest) hexponent

/-- Digits after a point and zeros. -/
theorem denotes_zeros_before {digits : List Char} (hdigits : ∀ c ∈ digits, isDigit c = true)
    (hne : digits ≠ []) (count : Nat) :
    Denotes (['0'] ++ '.' :: (List.replicate count '0' ++ digits))
      (digitsValue digits * 10 ^ (-count - digits.length : Int)) := by
  refine denotes_point isWhole_zero
    (List.forall_mem_append.2 ⟨fun _ ↦ isDigit_of_mem_zeros, hdigits⟩)
    (List.append_ne_nil_of_right_ne_nil _ hne) ?_
  rw [digitsValue_append ['0'], digitsValue_append, digitsValue_zeros, List.length_append,
    List.length_replicate, show digitsValue ['0'] = 0 from rfl, Nat.zero_mul, Nat.zero_mul,
    Nat.zero_add, Nat.zero_add]
  congr 2
  omega

/-- Digits and zeros before a point. -/
theorem denotes_zeros_after {digits : List Char} (k : Nat)
    (hwhole : IsWhole (digits ++ List.replicate k '0')) :
    Denotes ((digits ++ List.replicate k '0') ++ '.' :: ['0'])
      (digitsValue digits * 10 ^ (k : Int)) := by
  refine denotes_point hwhole isDigit_of_mem_zero (by simp) ?_
  rw [digitsValue_append _ ['0'], digitsValue_append_zeros, show digitsValue ['0'] = 0 from rfl,
    Nat.add_zero, List.length_singleton, pow_one, Nat.cast_mul, Nat.cast_mul, Nat.cast_pow,
    Nat.cast_ofNat, zpow_natCast, Nat.cast_one, zpow_neg_one, mul_inv_cancel_right₀ (by norm_num)]

/-- Digits laid out around a point. -/
theorem denotes_positional {digits : List Char} (hdigits : ∀ c ∈ digits, isDigit c = true)
    (hhead : ∃ c cs, digits = c :: cs ∧ c ≠ '0') (exponent : Int) :
    Denotes (Double.positional digits exponent).toList
      (digitsValue digits * 10 ^ (exponent + 1 - digits.length)) := by
  obtain ⟨c, cs, hcons, hc⟩ := hhead
  rw [Double.positional]
  split
  · have hdenotes := denotes_zeros_before hdigits (by simp [hcons]) (-exponent - 1).toNat
    rw [show -((-exponent - 1).toNat : Int) - digits.length = exponent + 1 - digits.length by omega]
      at hdenotes
    simp only [String.toList_append, String.toList_ofList]
    exact hdenotes
  · next hnonneg =>
    obtain ⟨k, rfl⟩ := Int.eq_ofNat_of_zero_le (Int.not_lt.1 hnonneg)
    rw [Int.toNat_natCast]
    have hwhole : IsWhole (digits.take (k + 1) ++ List.replicate (k + 1 - digits.length) '0') := by
      refine ⟨List.forall_mem_append.2
        ⟨fun d hd ↦ hdigits d (List.mem_of_mem_take hd), fun _ ↦ isDigit_of_mem_zeros⟩, Or.inr ?_⟩
      exact ⟨c, _, by rw [hcons, List.take_succ_cons, List.cons_append], hc⟩
    simp only [String.toList_append, String.toList_ofList]
    rw [List.append_assoc]
    split
    · next hempty =>
      have hshort : digits.length ≤ k + 1 := by simpa using hempty
      rw [List.take_of_length_le hshort] at hwhole ⊢
      have hdenotes := denotes_zeros_after _ hwhole
      rwa [Nat.cast_sub hshort] at hdenotes
    · next hlong =>
      have hlong' : k + 1 < digits.length := by simpa using hlong
      rw [String.toList_ofList, String.toList_ofList]
      refine denotes_point hwhole (fun d hd ↦ hdigits d (List.mem_of_mem_drop hd))
        (by simpa using hlong) ?_
      rw [Nat.sub_eq_zero_of_le hlong'.le, List.replicate_zero, List.append_nil,
        List.take_append_drop, List.length_drop]
      congr 2
      omega

/-- **The text of a decimal denotes its value.** -/
theorem denotes_text {d : Double.Decimal} (h : d.digits ≠ 0) :
    Denotes (d.text Double.standardLayout).toList d.value := by
  obtain ⟨k, hk⟩ := exists_trimmedDigits (toString d.digits).toList
  obtain ⟨c, cs, hcons, hc⟩ := head_toString h
  rw [Double.Decimal.text]
  generalize Double.trimmedDigits (toString d.digits).toList = trimmed at hk ⊢
  generalize hexponent : d.exponent + (toString d.digits).toList.length - 1 = exponent
  have hdigits : ∀ c ∈ trimmed, isDigit c = true := fun c hmem ↦
    isDigit_of_mem_toString (n := d.digits) (hk ▸ List.mem_append_left _ hmem)
  have hnumber : d.digits = digitsValue trimmed * 10 ^ k := by
    have hvalue := digitsValue_toString d.digits
    rw [hk, digitsValue_append_zeros] at hvalue
    exact hvalue.symm
  have hhead : ∃ c cs, trimmed = c :: cs ∧ c ≠ '0' := by
    rcases trimmed with _ | ⟨c', cs'⟩
    · exact absurd (hnumber.trans (Nat.zero_mul _)) h
    · rw [hk] at hcons
      exact ⟨c', cs', rfl, (List.cons.inj hcons).1 ▸ hc⟩
  have hvalue : d.value = digitsValue trimmed * 10 ^ (exponent + 1 - trimmed.length) := by
    rw [hk, List.length_append, List.length_replicate] at hexponent
    rw [Double.Decimal.value, hnumber, Nat.cast_mul, Nat.cast_pow, Nat.cast_ofNat, mul_assoc,
      ← zpow_natCast, ← zpow_add₀ (by norm_num)]
    congr 2
    omega
  rw [hvalue]
  split
  · exact denotes_positional hdigits hhead exponent
  · obtain ⟨c', cs', rfl, hc'⟩ := hhead
    have hdenotes := denotes_exponential hdigits hc' Double.standardLayout.exponentWidth exponent
    rwa [List.length_cons, Nat.cast_add_one, add_sub_add_right_eq_sub]

/-- A text that denotes a number in the cell of a magnitude is read as that magnitude. -/
theorem Denotes.readUnsigned_eq {value : ℚ} (h : Denotes cs value) {rank : Fin rankCount}
    (hcell : Double.Cell rank (value * Double.one)) (negative : Bool) (hrest : Ends rest) :
    readUnsigned negative (cs ++ rest) = .ok (.double (.finite negative rank), rest) := by
  obtain ⟨digits, exponent, hread, rfl⟩ := h.reads negative rest hrest
  rw [hread, Double.ofDecimal_eq_of_cell negative hcell, Double.ofRank, dif_pos rank.isLt]

/-- The text of a magnitude. -/
def magnitudeText (rank : Fin rankCount) : List Char :=
  (if rank.val = 0 then "0.0" else (Double.shortest rank).text Double.standardLayout).toList

theorem exists_denotes_magnitudeText (rank : Fin rankCount) : ∃ value : ℚ,
    Denotes (magnitudeText rank) value ∧ Double.Cell rank (value * Double.one) := by
  rw [magnitudeText]
  split
  · next hzero =>
    refine ⟨0, denotes_point isWhole_zero isDigit_of_mem_zero (by simp) ?_, ?_⟩
    · rw [show digitsValue (['0'] ++ ['0']) = 0 from rfl, Nat.cast_zero, zero_mul]
    · rw [hzero, zero_mul]
      exact_mod_cast Double.cell_unitsOfRank 0
  · next hrank =>
    exact ⟨_, denotes_text (Double.digits_shortest_ne_zero hrank), Double.cell_shortest hrank⟩

/-! ### Numbers -/

/-- A number with its sign. -/
def signed (negative : Bool) (cs : List Char) : List Char := if negative then '-' :: cs else cs

theorem writeNumber_int (n : Int) :
    writeNumber (.int n) = signed (n < 0) (toString n.natAbs).toList := by
  cases n with
  | ofNat n => rfl
  | negSucc n =>
    rw [signed, if_pos (by simp)]
    exact String.toList_append

theorem writeNumber_finite (negative : Bool) (rank : Fin rankCount) :
    writeNumber (.double (.finite negative rank)) = signed negative (magnitudeText rank) := by
  cases negative with
  | false => rfl
  | true => exact String.toList_append

theorem head_toString_natAbs (n : Int) :
    ∃ c ∈ (toString n.natAbs).toList.head?, isDigit c = true := by
  obtain ⟨c, cs, hcs⟩ := List.exists_cons_of_ne_nil (toString_ne_nil n.natAbs)
  exact ⟨c, by rw [hcs]; rfl, isDigit_of_mem_toString (hcs ▸ List.mem_cons_self)⟩

/-- The first character of a number. -/
theorem head_writeNumber (value : Scalar) :
    ∃ c ∈ (writeNumber value).head?, isDigit c = true ∨ c ∈ ['-', 'N', 'I'] := by
  have hsigned : ∀ negative cs, (∃ c ∈ cs.head?, isDigit c = true) →
      ∃ c ∈ (signed negative cs).head?, isDigit c = true ∨ c ∈ ['-', 'N', 'I'] := by
    rintro (_ | _) cs ⟨c, hc, hdigit⟩
    · exact ⟨c, hc, Or.inl hdigit⟩
    · exact ⟨'-', rfl, Or.inr List.mem_cons_self⟩
  rcases value with n | _ | negative | ⟨negative, rank⟩
  · exact writeNumber_int n ▸ hsigned _ _ (head_toString_natAbs n)
  · exact ⟨'N', rfl, Or.inr (by decide)⟩
  · cases negative
    · exact ⟨'I', rfl, Or.inr (by decide)⟩
    · exact ⟨'-', rfl, Or.inr (by decide)⟩
  · obtain ⟨value, hdenotes, -⟩ := exists_denotes_magnitudeText rank
    exact writeNumber_finite negative rank ▸ hsigned _ _ hdenotes.head

/-- What begins with a digit is none of the words. -/
theorem readWord?_digit {c : Char} (hc : isDigit c = true) (cs : List Char) :
    readWord? (c :: cs) = none ∧ readWord? ('-' :: c :: cs) = none := by
  have hne : ∀ d, isDigit d = false → d ≠ c := fun d hd h ↦ by
    rw [h, hc] at hd
    exact absurd hd (by decide)
  constructor <;>
    simp [readWord?, words, after?, hne 'n' rfl, hne 't' rfl, hne 'f' rfl, hne 'N' rfl, hne 'I' rfl,
      hne '-' rfl]

/-- A digit begins a number without sign. -/
theorem readNumber_digit {c : Char} (hc : isDigit c = true) (cs : List Char) :
    readNumber (c :: cs) = readUnsigned false (c :: cs) :=
  readNumber.eq_2 _ fun _ h ↦ absurd hc (by rw [(List.cons.inj h).1]; decide)

/-- A number is read through its magnitude. -/
theorem readSimple_signed {value : Bool → Scalar} (hhead : ∃ c ∈ cs.head?, isDigit c = true)
    (hread : ∀ negative, readUnsigned negative (cs ++ rest) = .ok (value negative, rest))
    (negative : Bool) :
    readSimple (signed negative cs ++ rest) = .ok (.number (value negative), rest) := by
  obtain ⟨c, hc, hdigit⟩ := hhead
  obtain ⟨cs, rfl⟩ := List.head?_eq_some_iff.1 hc
  obtain ⟨hword, hword'⟩ := readWord?_digit hdigit (cs ++ rest)
  have hnumber := hread negative
  rw [List.cons_append] at hnumber
  cases negative
  · rw [← readNumber_digit hdigit] at hnumber
    rw [signed, if_neg (by simp), List.cons_append, readSimple, hword, hnumber]
    rfl
  · rw [signed, if_pos rfl, List.cons_append, List.cons_append, readSimple, hword', readNumber,
      hnumber]
    rfl

/-- The digits of a whole number are read as that number. -/
theorem readUnsigned_toString {n : Nat} (hn : n < tenTo maxDigits) (hrest : Ends rest)
    (negative : Bool) : readUnsigned negative ((toString n).toList ++ rest) =
      .ok (.int (if negative then -(n : Int) else n), rest) := by
  have hlength : ¬maxDigits < (toString n).toList.length :=
    Nat.not_lt.2 (length_toString_le (by decide) hn)
  rw [readUnsigned_whole (isWhole_toString n) hrest.isDigit_head, finishNumber,
    hrest.readFraction_eq]
  simp only [hrest.readExponent_eq, List.isEmpty_nil, Option.isNone_none, Bool.and_self, if_true,
    if_neg hlength, digitsValue_toString]

theorem numberError?_int_eq_none_iff {n : Int} :
    numberError? (.int n) = none ↔ n.natAbs < tenTo maxDigits := by
  rw [numberError?]
  generalize tenTo maxDigits = limit
  split <;> simp [*]

/-- **A number is read as it was written.** -/
theorem readSimple_writeNumber {value : Scalar} (h : numberError? value = none)
    (hrest : Ends rest) : readSimple (writeNumber value ++ rest) = .ok (.number value, rest) := by
  rcases value with n | _ | negative | ⟨negative, rank⟩
  · have hvalue : (if decide (n < 0) = true then -(n.natAbs : Int) else n.natAbs) = n := by
      rcases Int.lt_or_le n 0 with hneg | hnonneg
      · rw [if_pos (decide_eq_true hneg)]
        omega
      · rw [if_neg (by simpa using hnonneg)]
        omega
    have hn : n.natAbs < tenTo maxDigits := numberError?_int_eq_none_iff.1 h
    have hread :=
      readSimple_signed (head_toString_natAbs n) (readUnsigned_toString hn hrest) (n < 0)
    rw [hvalue] at hread
    exact writeNumber_int n ▸ hread
  · rfl
  · cases negative <;> rfl
  · obtain ⟨value, hdenotes, hcell⟩ := exists_denotes_magnitudeText rank
    rw [writeNumber_finite]
    exact readSimple_signed hdenotes.head
      (fun negative ↦ hdenotes.readUnsigned_eq hcell negative hrest) negative

end Document

end Metrology
