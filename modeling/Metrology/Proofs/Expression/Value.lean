import Metrology.Proofs.Expression.Evaluation
import Metrology.Proofs.Registry.Valid

/-!
# The value of an expression

What the value of an expression depends on, and what it can be.

* `evaluate_congr` — it depends on the registry only through the operands, which are texts without
  operators; so two registries that agree on those agree on every expression, failures included.
* `isUsable_of_evaluate_eq_ok` — over a valid registry it is usable: neither zero, nor infinite, nor
  too large for a double.

Every operation checks that its result is finite, so finiteness needs no induction over the
operations: only a group passes on what it holds, and only a leaf takes a value from the registry.
-/

namespace Metrology

open Parts Expression

/-! ### Finite numbers -/

namespace Scalar

/-- A number that stands for a finite double. -/
def IsFinite (x : Scalar) : Prop := ∃ y : Double, x.toDouble = .ok y ∧ y.isFinite = true

theorem isFinite_double {x : Double} (h : x.isFinite = true) : (double x).IsFinite := ⟨x, rfl, h⟩

theorem isFinite_int {n : Int} (h : (Double.ofInt n).isFinite = true) : (int n).IsFinite :=
  ⟨Double.ofInt n, by rw [toDouble, if_pos h], h⟩

/-- A finite number that is not zero is usable. -/
theorem IsFinite.isUsable {x : Scalar} (h : x.IsFinite) (hzero : x.isZero = false) :
    x.isUsable = true := by
  obtain ⟨y, hy, hfinite⟩ := h
  cases x with
  | double x =>
    obtain rfl : x = y := Except.ok.inj hy
    have hx : x.isZero = false := hzero
    simp [Double.isFiniteNonzero, hfinite, hx]
  | int n =>
    have hn : (n == 0) = false := hzero
    rw [toDouble] at hy
    split at hy
    · next hfinite => simp [Scalar.isUsable, hfinite, bne, hn]
    · exact absurd hy (by simp)

end Scalar

variable {registry : Registry} {expression : RawText}

/-- What an operation gives is finite. -/
theorem isFinite_of_operate_eq_ok {operator : Operator} {part : List CodePoint} {x y z : Scalar}
    (h : operate expression operator part x y = .ok z) : z.IsFinite := by
  rw [operate] at h
  split at h
  · exact absurd h (by simp)
  · next n _ =>
    split at h
    · next hn => exact Except.ok.inj h ▸ Scalar.isFinite_int hn
    · exact absurd h (by simp)
  · next x _ =>
    split at h
    · next hx => exact Except.ok.inj h ▸ Scalar.isFinite_double hx
    · exact absurd h (by simp)

/-- The literal that a proper text is. -/
theorem literal?_ofString (text : String) :
    literal? (RawText.ofString text).points = Text.Literal.read? text.toList := by
  rw [literal?, RawText.ofString, RawText.chars?_map_char, Option.bind_some]

/-- What a leaf stands for: a registered multiplier, or the double of a literal. -/
theorem leaf_eq_ok {part : List CodePoint} {z : Scalar}
    (h : leaf registry expression part = .ok z) :
    registry.linear? ⟨part⟩ = some z ∨
      registry.linear? ⟨part⟩ = none ∧
        ∃ literal, literal? part = some literal ∧
          literal.toDouble.isFinite = true ∧ z = .double literal.toDouble := by
  rw [leaf] at h
  split at h
  · next multiplier hlinear => exact Or.inl (Except.ok.inj h ▸ hlinear)
  · next literal hlinear hread =>
    split at h
    · next hfinite =>
      exact Or.inr ⟨hlinear, literal, hread, hfinite, (Except.ok.inj h).symm⟩
    · exact absurd h (by simp)
  · split at h <;> exact absurd h (by simp)

theorem leaf_of_operand_eq_ok {part : List CodePoint} {z : Scalar}
    (h : operand registry expression part = .ok z) : leaf registry expression part = .ok z := by
  rw [operand] at h
  split at h
  · exact absurd h (by simp)
  · exact ok_of_mapError_eq_ok h

theorem isFinite_of_operand_eq_ok (hvalid : registry.Valid) {part : List CodePoint} {z : Scalar}
    (h : operand registry expression part = .ok z) : z.IsFinite := by
  rcases leaf_eq_ok (leaf_of_operand_eq_ok h) with hlinear | ⟨-, literal, -, hfinite, rfl⟩
  · exact Scalar.toDouble_of_isUsable (hvalid.usable hlinear)
  · exact Scalar.isFinite_double hfinite

namespace Derivation

variable {operators : List Operator}

theorem isFinite_of_outcome_eq_ok (hvalid : registry.Valid) (d : Derivation operators)
    {z : Scalar} (h : d.outcome registry expression = .ok z) : z.IsFinite := by
  induction d with
  | tighter phrase ih => exact ih h
  | split left right =>
    rw [outcome_split] at h
    obtain ⟨x, -, hx⟩ := exists_of_bind_eq_ok h
    obtain ⟨y, -, hy⟩ := exists_of_bind_eq_ok hx
    exact isFinite_of_operate_eq_ok hy
  | group inside ih => exact ih h
  | leaf text isLeaf => exact isFinite_of_operand_eq_ok hvalid h

end Derivation

/-! ### The value can be used -/

/-- An expression with a value has a derivation whose fold is that value. -/
theorem exists_derivation_of_evaluate_eq_ok {multiplier : Scalar}
    (h : evaluate registry expression = .ok multiplier) :
    ∃ d : Derivation Operator.byLooseness, d.text = expression.points ∧
      d.outcome registry expression = .ok multiplier ∧ multiplier.isZero = false := by
  rcases hbalanced : balanced expression.points with _ | _
  · rw [evaluate_of_not_balanced hbalanced] at h
    exact absurd h (by simp)
  · obtain ⟨d, hd, -⟩ := Derivation.balanced_iff_existsUnique_derivation.1 hbalanced
    refine ⟨d, hd, ?_⟩
    rcases Derivation.evaluate_text hd with hresult | ⟨-, hdeep⟩
    · rw [hresult, Derivation.result] at h
      obtain ⟨x, houtcome, hx⟩ := exists_of_bind_eq_ok h
      split at hx
      · exact absurd hx (by simp)
      · next hzero =>
        obtain rfl : x = multiplier := Except.ok.inj hx
        exact ⟨houtcome, by simpa using hzero⟩
    · rw [hdeep] at h
      exact absurd h (by simp)

/-- Over a valid registry an expression has no value that could not be registered. -/
theorem isUsable_of_evaluate_eq_ok (hvalid : registry.Valid) {multiplier : Scalar}
    (h : evaluate registry expression = .ok multiplier) : multiplier.isUsable = true := by
  obtain ⟨d, -, houtcome, hzero⟩ := exists_derivation_of_evaluate_eq_ok h
  exact (d.isFinite_of_outcome_eq_ok hvalid houtcome).isUsable hzero

/-! ### What the value depends on -/

/-- Registries that agree on the operands agree on every derived text, at any number of levels. -/
theorem Derivation.evaluatePart_text_congr {registry' : Registry} {operators : List Operator}
    (hsuffix : operators <:+ Operator.byLooseness)
    (h : ∀ text, IsLeaf text →
      operand registry expression text = operand registry' expression text)
    (d : Derivation operators) (levels : Nat) :
    evaluatePart registry expression levels d.text =
      evaluatePart registry' expression levels d.text := by
  induction d generalizing levels with
  | tighter phrase ih => exact ih ((List.suffix_cons _ _).trans hsuffix) levels
  | split left right ihleft ihright =>
    cases levels with
    | zero => rw [evaluatePart_zero, evaluatePart_zero]
    | succ levels =>
      have hgroup := inside?_text_split left right
      have hbalanced := (split left right).balanced_text
      have hsplit := split?_text_split hsuffix left right
      rw [evaluatePart_of_split? hgroup hbalanced hsplit,
        evaluatePart_of_split? hgroup hbalanced hsplit,
        ihleft ((List.suffix_cons _ _).trans hsuffix), ihright hsuffix]
  | group inside ih =>
    cases levels with
    | zero => rw [evaluatePart_zero, evaluatePart_zero]
    | succ levels =>
      rw [evaluatePart_of_inside? (inside?_text_group inside),
        evaluatePart_of_inside? (inside?_text_group inside), ih (List.suffix_refl _)]
  | leaf text isLeaf =>
    cases levels with
    | zero => rw [evaluatePart_zero, evaluatePart_zero]
    | succ levels =>
      have hgroup := inside?_leaf isLeaf
      have hsplit := split?_leaf isLeaf
      rw [show (leaf text isLeaf).text = text from rfl,
        evaluatePart_of_leaf hgroup isLeaf.balanced hsplit,
        evaluatePart_of_leaf hgroup isLeaf.balanced hsplit, h text isLeaf]

/-- Registries that agree on the operands agree on the expression. -/
theorem evaluate_congr {registry' : Registry}
    (h : ∀ text, IsLeaf text →
      operand registry expression text = operand registry' expression text) :
    evaluate registry expression = evaluate registry' expression := by
  rcases hbalanced : balanced expression.points with _ | _
  · rw [evaluate_of_not_balanced hbalanced, evaluate_of_not_balanced hbalanced]
  · obtain ⟨d, hd, -⟩ := Derivation.balanced_iff_existsUnique_derivation.1 hbalanced
    rw [evaluate, evaluate, ← hd,
      Derivation.evaluatePart_text_congr (List.suffix_refl _) h d maxNesting]

/-- An expression without operators and groups is an operand. -/
theorem operand_of_evaluate_eq_ok {multiplier : Scalar} (hleaf : IsLeaf expression.points)
    (h : evaluate registry expression = .ok multiplier) :
    operand registry expression expression.points = .ok multiplier := by
  obtain ⟨d, hd, houtcome, -⟩ := exists_derivation_of_evaluate_eq_ok h
  have hnesting : ∀ levels, evaluatePart registry expression (levels + 1) expression.points =
      operand registry expression expression.points :=
    evaluatePart_of_leaf (Derivation.inside?_leaf hleaf) hleaf.balanced
      (Derivation.split?_leaf hleaf)
  rw [← hnesting d.nesting, ← hd,
    Derivation.evaluatePart_eq_outcome (Nat.le_succ d.nesting), houtcome]

end Metrology
