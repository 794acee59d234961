import Metrology.Proofs.Converter.Resolution
import Metrology.Proofs.Double.Scaling
import Metrology.Proofs.Rendering.Numeral

/-!
# Rendered quantities are unit expressions

The text of a quantity, a number and a unit, is itself a unit expression: the product of a literal
and the unit.

* A finite number is rendered as a numeral (`exists_numeral_of_plainRounded`,
  `exists_numeral_of_scientificRounded`), so it is a leaf of the grammar and a literal.
* The space after it is the first operator of the text, and the loosest, so the text is split there
  whatever the unit is, and what the unit evaluates to is multiplied by the literal
  (`evaluate_product`).

A registry may have a multiplier under the text of a number, and that one counts. If it is the
number itself, this makes a difference only where it is a whole number and so is the multiplier of
the unit: then the product is that of whole numbers, which is not rounded.
-/

namespace Metrology

open Parts Expression Text

namespace Rendering

/-! ### Finite numbers are rendered as numerals -/

/-- The texts of the numbers that are not finite. -/
def nonfiniteTexts : List String := ["nan", "inf", "-inf"]

theorem text_mem_nonfiniteTexts {x : Double} (h : x.isFinite = false) :
    x.text ∈ nonfiniteTexts := by
  cases x with
  | nan => decide
  | infinite negative => cases negative <;> decide
  | finite => exact absurd h (by simp)

/-- Zero as it is rendered in every style. -/
def zeroNumeral : Numeral :=
  ⟨false, ['0'], [], 0, List.cons_ne_nil _ _, List.forall_mem_singleton.2 (by decide),
    List.forall_mem_nil _⟩

/-- A number with places that are checked shows the number rounded to these places. -/
theorem exists_shows_of_trimmed {negative : Bool} {rank : Fin rankCount} {places : Int} {n : String}
    (h : (Double.finite negative rank).trimmed? places = .ok n) : 0 ≤ places ∧
      ∃ d : Numeral, d.Shows n negative (Double.roundedAt rank (min places Double.exactPlaces)) ∧
        d.IsTrimmed := by
  obtain ⟨count, hcount, htrimmed⟩ := exists_of_bind_eq_ok h
  obtain rfl := Except.ok.inj htrimmed
  rw [Double.checkPlaces] at hcount
  split at hcount
  · exact absurd hcount (by simp)
  · next hnonneg =>
    split at hcount
    · exact absurd hcount (by simp)
    · obtain rfl := Except.ok.inj hcount
      obtain ⟨d, hd⟩ := exists_numeral_fixed negative rank (min places.toNat Double.exactPlaces)
      have hplaces : ((min places.toNat Double.exactPlaces : ℕ) : Int) =
          min places Double.exactPlaces := by
        rw [Nat.cast_min, Int.toNat_of_nonneg (not_lt.1 hnonneg)]
      exact ⟨not_lt.1 hnonneg, (hplaces ▸ hd).trimZeros⟩

theorem exists_numeral_of_trimmed {x : Double} (hx : x.isFinite = true) {places : Int} {n : String}
    (h : x.trimmed? places = .ok n) : ∃ d : Numeral, n.toList = d.mantissa := by
  cases x with
  | nan | infinite => exact absurd hx (by simp)
  | finite negative rank =>
    obtain ⟨-, d, hd, -⟩ := exists_shows_of_trimmed h
    exact ⟨d, hd.toList_eq⟩

theorem exists_numeral_of_plainRounded {x : Double} {digits : Int} {n : String}
    (h : plainRounded x digits = .ok n) :
    n ∈ nonfiniteTexts ∨ ∃ d : Numeral, n.toList = d.text := by
  rw [plainRounded] at h
  split at h
  · next hx =>
    obtain rfl := Except.ok.inj h
    exact Or.inl (text_mem_nonfiniteTexts (by simpa using hx))
  · next hx =>
    split at h
    · obtain rfl := Except.ok.inj h
      exact Or.inr ⟨zeroNumeral, rfl⟩
    · obtain ⟨exponent, -, htrimmed⟩ := exists_of_bind_eq_ok h
      obtain ⟨d, hd⟩ := exists_numeral_of_trimmed (by simpa using hx) htrimmed
      have hzero : (d.withExponent 0).text = d.mantissa := Numeral.text_of_exponent_eq_zero rfl
      exact Or.inr ⟨d.withExponent 0, hd.trans hzero.symm⟩

theorem exists_numeral_of_scientificRounded {x : Double} {digits : Int} {n : String}
    (h : scientificRounded x digits false = .ok n) :
    n ∈ nonfiniteTexts ∨ ∃ d : Numeral, n.toList = d.text := by
  rw [scientificRounded] at h
  split at h
  · next hx =>
    obtain rfl := Except.ok.inj h
    exact Or.inl (text_mem_nonfiniteTexts (by simpa using hx))
  · next hx =>
    split at h
    · obtain rfl := Except.ok.inj h
      exact Or.inr ⟨zeroNumeral, rfl⟩
    · next hzero =>
      have hfinite : x.isFiniteNonzero = true := by simp_all [Double.isFiniteNonzero]
      obtain ⟨exponent, hexponent, h⟩ := exists_of_bind_eq_ok h
      obtain ⟨quotient, hquotient, h⟩ := exists_of_bind_eq_ok h
      obtain ⟨mantissa, hmantissa, h⟩ := exists_of_bind_eq_ok h
      -- no step on the way to the mantissa leaves the finite doubles
      have hcarried := Double.isFinite_carry (Double.isFinite_roundPlaces
        (Double.isFinite_scaleDown hfinite hexponent hquotient) hmantissa) exponent
      dsimp only at h
      generalize carry mantissa exponent = carried at h hcarried
      obtain ⟨numeral, hnumeral, h⟩ := exists_of_bind_eq_ok h
      obtain rfl := Except.ok.inj h
      obtain ⟨d, hd⟩ := exists_numeral_of_trimmed hcarried hnumeral
      refine Or.inr ⟨d.withExponent carried.2, ?_⟩
      rw [String.toList_append, hd]
      rfl

/-- The number in a text of a quantity is a numeral, if it is finite. -/
theorem exists_numeral_of_withUnit {style : Style} (hstyle : style = .plain ∨ style = .scientific)
    {digits : Int} {unit : RawText} (hunit : unit ≠ "") {x : Double} {t : RawText}
    (h : withUnit style digits false unit x = .ok t) :
    ∃ n : String, t = n ++ " " ++ unit ∧
      (n ∈ nonfiniteTexts ∨ ∃ d : Numeral, n.toList = d.text) := by
  have hattach : ∀ n : String, attachUnit unit n = n ++ " " ++ unit := fun n ↦
    if_neg (by simp [RawText.isEmpty_eq_false_iff.2 hunit])
  rcases hstyle with rfl | rfl
  · obtain ⟨n, hn, rfl⟩ := exists_of_map_eq_ok h
    obtain ⟨rounded, -, hrounded⟩ := exists_of_bind_eq_ok hn
    exact ⟨n, hattach n, exists_numeral_of_plainRounded (ok_of_mapError_eq_ok hrounded)⟩
  · obtain ⟨n, hn, rfl⟩ := exists_of_map_eq_ok h
    obtain ⟨rounded, -, hrounded⟩ := exists_of_bind_eq_ok hn
    exact ⟨n, hattach n, exists_numeral_of_scientificRounded (ok_of_mapError_eq_ok hrounded)⟩

theorem exists_numeral_of_quantity {c : Converter} {value : Value} {style : Style}
    (hstyle : style = .plain ∨ style = .scientific) {digits : Int} {unit : RawText}
    (hunit : unit ≠ "") {t : RawText} (h : (quantity c value unit style digits false).1 = .ok t) :
    ∃ n : String, t = n ++ " " ++ unit ∧
      (n ∈ nonfiniteTexts ∨ ∃ d : Numeral, n.toList = d.text) := by
  have hshown : (if style = .si then siBaseUnit c.registry unit else .ok unit) = .ok unit :=
    if_neg (by rcases hstyle with rfl | rfl <;> decide)
  rw [quantity, hshown] at h
  dsimp only at h
  split at h
  · exact exists_numeral_of_withUnit hstyle hunit h
  · exact absurd h (by simp)

end Rendering

/-- The product of two numbers is that of their doubles, unless both are whole. -/
theorem Scalar.mul_of_toDouble {v m : Scalar} {x y : Double} (hv : v.toDouble = .ok x)
    (hm : m.toDouble = .ok y) (hnot : ∀ j k, v = .int j → m ≠ .int k) :
    v.mul m = .ok (.double (x * y)) := by
  rw [mul, combine.eq_2 _ _ _ _ fun j k hj hk ↦ hnot j k hj hk, hv, hm]
  rfl

/-! ### The text of an expression in its failures -/

variable {registry : Registry} {expression : RawText}

theorem leaf_eq_ok_of {part : List CodePoint} {z : Scalar}
    (h : Expression.leaf registry expression part = .ok z) (other : RawText) :
    Expression.leaf registry other part = .ok z := by
  rw [Expression.leaf] at h ⊢
  split at h
  · exact h
  · split at h
    · next hfinite => rw [if_pos hfinite]; exact h
    · exact absurd h (by simp)
  · split at h <;> exact absurd h (by simp)

theorem operand_eq_ok_of {part : List CodePoint} {z : Scalar}
    (h : operand registry expression part = .ok z) (other : RawText) :
    operand registry other part = .ok z := by
  rw [operand] at h ⊢
  split at h
  · exact absurd h (by simp)
  · next hpart =>
    rw [if_neg hpart, leaf_eq_ok_of (ok_of_mapError_eq_ok h) other]
    rfl

theorem operate_eq_ok_of {operator : Operator} {part : List CodePoint} {x y z : Scalar}
    (h : operate expression operator part x y = .ok z) (other : RawText) :
    operate other operator part x y = .ok z := by
  rw [operate] at h ⊢
  split at h
  · exact absurd h (by simp)
  · exact h
  · split at h
    · next hfinite => rw [if_pos hfinite]; exact h
    · exact absurd h (by simp)

/-- The expression that a phrase is a part of is named in failures only. -/
theorem Derivation.outcome_eq_ok_of {operators : List Operator} (d : Derivation operators)
    {z : Scalar} (h : d.outcome registry expression = .ok z) (other : RawText) :
    d.outcome registry other = .ok z := by
  induction d generalizing z with
  | tighter phrase ih => exact ih h
  | split left right ihleft ihright =>
    rw [outcome_split] at h ⊢
    obtain ⟨x, hx, h⟩ := exists_of_bind_eq_ok h
    obtain ⟨y, hy, h⟩ := exists_of_bind_eq_ok h
    rw [ihleft hx, ihright hy]
    exact operate_eq_ok_of h other
  | group inside ih => exact ih h
  | leaf text isLeaf => exact operand_eq_ok_of h other

/-! ### A number before a unit -/

/-- Under a text a registry has no multiplier that is not equal to a number. -/
def Registry.HasNoOther (r : Registry) (n : String) (x : Double) : Prop :=
  ∀ v, r.linear? n = some v → v.eqv (.double x) = true

namespace Rendering

/-- A text has an outcome, unless the unit in it already uses all levels of nesting: in the text it
is an operand, and one level deeper. -/
def ReadsAs (r : Registry) (unit t : RawText) (outcome : Except Failure Scalar) : Prop :=
  evaluate r t = outcome ∨
    (∃ d : Derivation Operator.byLooseness, d.text = unit.points ∧ maxNesting ≤ d.nesting) ∧
      evaluate r t = .error (tooDeep t)

/-- A text that is to fail as unresolved does so in any case: running out of levels is such a
failure too. -/
theorem ReadsAs.exists_unresolved {r : Registry} {unit t part : RawText} {fault : Fault}
    (h : ReadsAs r unit t (.error (.unit (.unresolved fault part t)))) :
    ∃ fault part, evaluate r t = .error (.unit (.unresolved fault part t)) := by
  rcases h with h | ⟨-, h⟩ <;> exact ⟨_, _, h⟩

/-- What a text of a number and a unit evaluates to, by the number as a double and the multiplier of
the unit. -/
structure ReadsBack (r : Registry) (n : String) (unit t : RawText) (x : Double) (m : Scalar) :
    Prop where
  /-- Whole numbers have their exact product. -/
  whole : ∀ {j k : Int}, r.linear? n = some (.int j) → m = .int k →
    (Double.ofInt (j * k)).isFinite = true → ReadsAs r unit t (.ok (.int (j * k)))
  /-- Other numbers have the product of their doubles, if that is neither zero nor infinite. -/
  rounded : (∀ j k : Int, r.linear? n = some (.int j) → m ≠ .int k) →
    ∃ y, m.toDouble = .ok y ∧
      ((x * y).isFiniteNonzero = true → ReadsAs r unit t (.ok (.double (x * y)))) ∧
      ((x * y).isFiniteNonzero = false →
        ∃ fault part, evaluate r t = .error (.unit (.unresolved fault part t)))

/-- A text without the marks of compound units is a leaf. -/
theorem isLeaf_of_notMem_compoundMarks {cs : List CodePoint} (h : ∀ c ∈ cs, c ∉ compoundMarks) :
    IsLeaf cs := by
  have hdepth : depthAfter 0 cs = some 0 := by
    induction cs with
    | nil => rfl
    | cons c cs ih =>
      obtain ⟨hc, hcs⟩ := List.forall_mem_cons.1 h
      have hopen : c ≠ .char '(' := by
        rintro rfl
        exact hc (by decide)
      have hclose : c ≠ .char ')' := by
        rintro rfl
        exact hc (by decide)
      rw [depthAfter_cons, nextDepth_of_ne hopen hclose]
      exact ih hcs
  refine ⟨balanced_iff.2 hdepth, fun operator left right htext ↦ ?_, fun inside htext ↦ ?_⟩
  · have hmem : operator.sign ∈ cs := htext ▸ List.mem_append_right _ List.mem_cons_self
    exact absurd (by cases operator <;> decide) (h _ hmem)
  · have hmem : .char '(' ∈ cs := htext ▸ List.mem_cons_self
    exact absurd (by decide) (h _ hmem)

variable {r : Registry} {n : String} {unit : RawText} {m : Scalar}

/-- The product of a leaf and a multiplier as the outcome of a whole text. -/
def leafTimes (r : Registry) (n : String) (t : RawText) (m : Scalar) : Except Failure Scalar := do
  let v ← operand r t (RawText.ofString n).points
  let z ← operate t .product t.points v m
  if z.isZero then .error (.unit (.unresolved .zeroMultiplier t t)) else .ok z

/-- A leaf and a unit with a space between them are the product of the two, whatever the unit is. -/
theorem evaluate_product (hn : IsLeaf (RawText.ofString n).points) (hm : evaluate r unit = .ok m)
    {t : RawText}
    (ht : t = n ++ " " ++ unit) :
    ReadsAs r unit t (leafTimes r n t m) := by
  obtain ⟨right, hright, houtcome, -⟩ := exists_derivation_of_evaluate_eq_ok hm
  -- the number may not be split, the rest is split as it is on its own
  let d : Derivation Operator.byLooseness :=
    .split (.tighter (.tighter (.leaf (RawText.ofString n).points hn))) right
  have htext : d.text = t.points := by
    show (RawText.ofString n).points ++ .char ' ' :: right.text = t.points
    rw [ht, RawText.points_append, RawText.points_append, hright, List.append_assoc]
    rfl
  have hd : d.outcome r t = operand r t (RawText.ofString n).points >>= fun v ↦
      operate t .product t.points v m := by
    rw [← htext]
    show (operand r t (RawText.ofString n).points >>= fun v ↦ right.outcome r t >>= fun y ↦
      operate t .product d.text v y) = _
    rw [right.outcome_eq_ok_of houtcome t]
    rfl
  have hresult : d.result r t = leafTimes r n t m := by
    rw [Derivation.result, hd, leafTimes]
    rcases operand r t (RawText.ofString n).points with e | v <;> rfl
  rcases Derivation.evaluate_text htext with heq | ⟨hlt, hdeep⟩
  · exact Or.inl (heq.trans hresult)
  · refine Or.inr ⟨⟨right, hright, ?_⟩, hdeep⟩
    have hnesting : d.nesting = max 1 right.nesting + 1 := rfl
    rw [hnesting, maxNesting] at hlt
    rw [maxNesting]
    omega

theorem leafTimes_of_operate {t : RawText} {v z : Scalar}
    (hn : operand r t (RawText.ofString n).points = .ok v)
    (hz : operate t .product t.points v m = .ok z) :
    leafTimes r n t m =
      if z.isZero then .error (.unit (.unresolved .zeroMultiplier t t)) else .ok z := by
  rw [leafTimes, hn]
  show (operate t .product t.points v m >>= _) = _
  rw [hz]
  rfl

theorem leafTimes_int {t : RawText} {j k : Int}
    (hn : operand r t (RawText.ofString n).points = .ok (.int j))
    (hj : j ≠ 0) (hk : k ≠ 0) (hfinite : (Double.ofInt (j * k)).isFinite = true) :
    leafTimes r n t (.int k) = .ok (.int (j * k)) := by
  have hoperate : operate t .product t.points (.int j) (.int k) = .ok (.int (j * k)) := by
    rw [operate, Operator.apply?, Scalar.mul_int]
    dsimp only [Except.toOption]
    rw [if_pos hfinite]
  have hzero : (Scalar.int (j * k)).isZero = false := beq_eq_false_iff_ne.2 (mul_ne_zero hj hk)
  rw [leafTimes_of_operate hn hoperate, hzero, if_neg (by simp)]

theorem leafTimes_double {t : RawText} {v : Scalar} {p : Double}
    (hn : operand r t (RawText.ofString n).points = .ok v) (hproduct : v.mul m = .ok (.double p)) :
    (p.isFiniteNonzero = true → leafTimes r n t m = .ok (.double p)) ∧
      (p.isFiniteNonzero = false →
        ∃ fault part, leafTimes r n t m = .error (.unit (.unresolved fault part t))) := by
  have hoperate : operate t .product t.points v m =
      if p.isFinite then .ok (.double p)
      else .error (.unit (.unresolved (.notFinite p) t t)) := by
    rw [operate, Operator.apply?, hproduct]
    rfl
  by_cases hfinite : p.isFinite = true
  · rw [if_pos hfinite] at hoperate
    rw [leafTimes_of_operate hn hoperate, Double.isFiniteNonzero, hfinite, Bool.true_and]
    show ((!p.isZero) = true → (if p.isZero = true then _ else _) = _) ∧
      ((!p.isZero) = false → ∃ fault part, (if p.isZero = true then _ else _) = _)
    rcases p.isZero with _ | _
    · exact ⟨fun _ ↦ rfl, fun h ↦ absurd h (by simp)⟩
    · exact ⟨fun h ↦ absurd h (by simp), fun _ ↦ ⟨_, _, rfl⟩⟩
  · rw [if_neg hfinite] at hoperate
    rw [Bool.not_eq_true] at hfinite
    rw [Double.isFiniteNonzero, hfinite, Bool.false_and]
    refine ⟨fun h ↦ absurd h (by simp), fun _ ↦ ⟨.notFinite p, t, ?_⟩⟩
    rw [leafTimes, hn]
    show (operate t .product t.points v m >>= _) = _
    rw [hoperate]
    rfl

/-- The value of a literal, if the registry has no other number under its text. -/
theorem operand_of_literal (hvalid : r.Valid) {literal : Literal}
    (hread : Literal.read? n.toList = some literal) (hown : r.HasNoOther n literal.toDouble)
    (t : RawText) :
    (∃ v, operand r t (RawText.ofString n).points = .ok v ∧ v.toDouble = .ok literal.toDouble ∧
        ∀ j, v = .int j ↔ r.linear? n = some (.int j)) ∨
      r.linear? n = none ∧ literal.toDouble.isFinite = false ∧
        operand r t (RawText.ofString n).points =
          .error (.unit (.unresolved .unknownPart n t)) := by
  have hne : ¬(RawText.ofString n).points.isEmpty = true := by
    intro h
    rw [List.map_eq_nil_iff.1 (List.isEmpty_iff.1 h)] at hread
    exact absurd (show none = some literal from hread) (by simp)
  have hpart : literal? (RawText.ofString n).points = some literal := by
    rw [literal?_ofString, hread]
  rw [operand, if_neg hne, Expression.leaf, hpart]
  rcases hlinear : r.linear? n with _ | v
  · by_cases hfinite : literal.toDouble.isFinite = true
    · dsimp only
      rw [if_pos hfinite]
      exact Or.inl ⟨_, rfl, rfl, fun j ↦ by simp⟩
    · dsimp only
      rw [if_neg hfinite]
      exact Or.inr ⟨rfl, by simpa using hfinite, rfl⟩
  · refine Or.inl ⟨v, rfl, ?_, fun j ↦ by simp⟩
    have husable := hvalid.usable hlinear
    have hsame := hown v hlinear
    cases v with
    | double x => rw [Scalar.toDouble_double, Double.eq_of_eqv husable hsame]
    | int j =>
      rw [Scalar.isUsable, Bool.and_eq_true, bne_iff_ne] at husable
      rw [Scalar.toDouble, if_pos husable.2, Double.ofInt_of_eqvInt husable.1 hsame]

theorem readsBack (hvalid : r.Valid) {literal : Literal}
    (hn : ∀ c ∈ (RawText.ofString n).points, c ∉ compoundMarks)
    (hread : Literal.read? n.toList = some literal)
    (hown : r.HasNoOther n literal.toDouble) (hm : evaluate r unit = .ok m) {t : RawText}
    (ht : t = n ++ " " ++ unit) : ReadsBack r n unit t literal.toDouble m := by
  have hproduct := evaluate_product (isLeaf_of_notMem_compoundMarks hn) hm ht
  have husable := isUsable_of_evaluate_eq_ok hvalid hm
  have hoperand := operand_of_literal hvalid hread hown t
  refine ⟨fun {j k} hj hk hfinite ↦ ?_, fun hnot ↦ ?_⟩
  · subst hk
    obtain ⟨v, hv, -, hwhole⟩ | ⟨hnone, -⟩ := hoperand
    · obtain rfl := (hwhole j).2 hj
      have hj' := Scalar.isZero_of_isUsable (hvalid.usable hj)
      have hk' := Scalar.isZero_of_isUsable husable
      rwa [leafTimes_int hv (beq_eq_false_iff_ne.1 hj') (beq_eq_false_iff_ne.1 hk') hfinite]
        at hproduct
    · exact absurd (hnone.symm.trans hj) (by simp)
  · obtain ⟨y, hy, -⟩ := Scalar.exists_toDouble_of_isUsable husable
    refine ⟨y, hy, ?_⟩
    obtain ⟨v, hv, hx, hwhole⟩ | ⟨-, hinfinite, hv⟩ := hoperand
    · have hmul := Scalar.mul_of_toDouble hx hy fun j k hj ↦ hnot j k ((hwhole j).1 hj)
      obtain ⟨hvalue, hfailure⟩ := leafTimes_double hv hmul
      refine ⟨fun h ↦ hvalue h ▸ hproduct, fun h ↦ ?_⟩
      obtain ⟨fault, part, hfault⟩ := hfailure h
      exact (hfault ▸ hproduct).exists_unresolved
    · have hfault : leafTimes r n t m = .error (.unit (.unresolved .unknownPart n t)) := by
        rw [leafTimes, hv]
        rfl
      refine ⟨fun h ↦ ?_, fun _ ↦ (hfault ▸ hproduct).exists_unresolved⟩
      rw [Double.isFiniteNonzero, Bool.and_eq_true] at h
      rw [Double.isFinite_of_isFinite_mul h.1] at hinfinite
      exact absurd hinfinite (by simp)

/-- **A rendered quantity reads back as its number times its unit.** -/
theorem quantity_reads_back (hvalid : r.Valid) (hm : evaluate r unit = .ok m) {c : Converter}
    {value : Value} {style : Style} (hstyle : style = .plain ∨ style = .scientific) {digits : Int}
    {t : RawText} (ht : (quantity c value unit style digits false).1 = .ok t) :
    ∃ n : String, t = n ++ " " ++ unit ∧ (n ∉ nonfiniteTexts →
      (∀ ch ∈ n.toList, .char ch ∉ compoundMarks) ∧
      ∃ literal, Literal.read? n.toList = some literal ∧
        (r.HasNoOther n literal.toDouble → ReadsBack r n unit t literal.toDouble m)) := by
  have hunit : unit ≠ "" := by
    rintro rfl
    rw [evaluate_empty] at hm
    exact absurd hm (by simp)
  obtain ⟨n, htext, hn⟩ := exists_numeral_of_quantity hstyle hunit ht
  refine ⟨n, htext, fun hfinite ↦ ?_⟩
  obtain ⟨d, hd⟩ := hn.resolve_left hfinite
  have hmarks : ∀ ch ∈ n.toList, .char ch ∉ compoundMarks := fun ch hch ↦
    d.notMem_compoundMarks (hd ▸ hch)
  have hread := hd ▸ d.read?_text
  exact ⟨hmarks, _, hread, fun hown ↦
    readsBack hvalid (List.forall_mem_map.2 hmarks) hread hown hm htext⟩

/-- A registry with a number among its symbols. Two of its multipliers are whole numbers, one of
them no double. -/
def numberedUnits : Registry :=
  (Registry.seed
    [⟨"lap", "lap", .length, .double 400, [], by decide +kernel⟩,
      ⟨"a", "a", .length, .int 9007199254740993, [], by decide +kernel⟩,
      ⟨"5", "five", .length, .int 5, [], by decide +kernel⟩] []).toOption.getD ∅

theorem valid_numberedUnits : numberedUnits.Valid := by
  rw [numberedUnits]
  generalize hseed : Registry.seed _ _ = result
  rcases result with e | r
  · exact Registry.valid_empty
  · exact Registry.valid_of_seed hseed

/-- One and a half laps read back as their length. -/
theorem length_reads_back :
    (numberedUnits.Valid ∧ evaluate numberedUnits "lap" = .ok (.double 400) ∧
      (quantity { registry := numberedUnits } (.ofDouble 600) "lap" .plain 3 false).1 =
        .ok "1.5 lap") ∧
      ReadsAs numberedUnits "lap" "1.5 lap" (.ok (.double 600)) := by
  have hm : evaluate numberedUnits "lap" = .ok (.double 400) := by decide +kernel
  have ht : (quantity { registry := numberedUnits } (.ofDouble 600) "lap" .plain 3 false).1 =
      .ok "1.5 lap" := by decide +kernel
  refine ⟨⟨valid_numberedUnits, hm, ht⟩, ?_⟩
  obtain ⟨n, htext, hn⟩ := quantity_reads_back valid_numberedUnits hm (Or.inl rfl) ht
  obtain rfl : n = "1.5" := by
    have hsame : RawText.ofString (n ++ " " ++ "lap") = .ofString ("1.5" ++ " " ++ "lap") := by
      rw [RawText.ofString_append, RawText.ofString_append, ← htext]
      decide
    exact (String.append_left_inj " ").1
      ((String.append_left_inj "lap").1 (RawText.ofString_injective hsame))
  obtain ⟨-, literal, hread, hback⟩ := hn (by decide)
  have hliteral : Literal.read? "1.5".toList = some ⟨false, 15, -1⟩ := by decide +kernel
  obtain rfl := Option.some_inj.1 (hread.symm.trans hliteral)
  have hnone : numberedUnits.linear? "1.5" = none := by decide +kernel
  have hown : numberedUnits.HasNoOther "1.5" (Literal.toDouble ⟨false, 15, -1⟩) := fun v hv ↦
    absurd (hnone.symm.trans hv) (by simp)
  obtain ⟨y, hy, hvalue, -⟩ := (hback hown).rounded fun j k hj ↦
    absurd (hnone.symm.trans hj) (by simp)
  obtain rfl : 400 = y := Except.ok.inj hy
  have hproduct : Literal.toDouble ⟨false, 15, -1⟩ * 400 = 600 := by decide +kernel
  rw [hproduct] at hvalue
  exact hvalue (by decide +kernel)

/-- A text of two whole numbers reads back as their product, which is not that of their doubles. -/
theorem whole_product_ne_rounded :
    (numberedUnits.Valid ∧ evaluate numberedUnits "a" = .ok (.int 9007199254740993) ∧
      (quantity { registry := numberedUnits } (.ofDouble 4.503599627370496e16) "a" .plain 3
        false).1 = .ok "5 a" ∧
      Literal.read? "5".toList = some ⟨false, 5, 0⟩ ∧
      numberedUnits.HasNoOther "5" (Literal.toDouble ⟨false, 5, 0⟩)) ∧
    evaluate numberedUnits "5 a" = .ok (.int 45035996273704965) ∧
    (Scalar.double (Literal.toDouble ⟨false, 5, 0⟩)).mul (.int 9007199254740993) =
      .ok (.double 45035996273704960) ∧
    Scalar.eqv (.int 45035996273704965) (.double 45035996273704960) = false := by
  have hfive : numberedUnits.linear? "5" = some (.int 5) := by decide +kernel
  have hown : numberedUnits.HasNoOther "5" (Literal.toDouble ⟨false, 5, 0⟩) := by
    intro v hv
    obtain rfl := Option.some_inj.1 (hfive.symm.trans hv)
    decide +kernel
  exact ⟨⟨valid_numberedUnits, by decide +kernel, by decide +kernel, by decide, hown⟩,
    by decide +kernel, by decide +kernel, by decide +kernel⟩

end Rendering

end Metrology
