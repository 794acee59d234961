import Metrology.Expression
import Metrology.Proofs.Expression.Derivation

/-!
# Evaluation follows the derivation

`Expression.evaluate` builds no tree: it scans and splits the text anew at every level. Here it is
compared with the fold of the operations over the derivation of the text.

* `evaluatePart_text` — a derived text evaluates to the fold, or the evaluation runs out of levels
  because the derivation is nested more deeply than that.
* `findSome?_nodes` — the failure of the fold is the one of the first node that fails, the nodes
  taken in order, operands before operations and left before right.

The scans enter only through `inside?` and `split?` of a derived text.
-/

namespace Metrology

open Parts

/-- The failure of an outcome. -/
def failureOf {α : Type} : Except Failure α → Option Failure
  | .ok _ => none
  | .error e => some e

namespace Expression

variable (registry : Registry) (expression : RawText)

/-- A text without operators as an operand: the empty one fails. -/
def operand (part : List CodePoint) : Except Failure Scalar :=
  if part.isEmpty then .error (.unit (.unresolved .emptyPart "" expression))
  else (leaf registry expression part).mapError Failure.unit

/-- The failure of an expression whose evaluation runs out of levels. -/
def tooDeep : Failure := .unit (.unresolved .nestedTooDeeply expression expression)

/-! ### One level of evaluation -/

theorem evaluatePart_zero (part : List CodePoint) :
    evaluatePart registry expression 0 part = .error (tooDeep expression) := by
  cases part <;> rfl

variable {registry expression}

/-- A group is its inside, one level deeper. -/
theorem evaluatePart_of_inside? {part inside : List CodePoint} (h : inside? part = some inside)
    (levels : Nat) :
    evaluatePart registry expression (levels + 1) part =
      evaluatePart registry expression levels inside := by
  have hpart : part.isEmpty = false := by
    rw [(inside?_eq_some_iff.1 h).1]
    rfl
  rw [evaluatePart, hpart, h]
  rfl

/-- A text that an operator splits is the operation on its sides, each one level deeper. -/
theorem evaluatePart_of_split? {part left right : List CodePoint} {operator : Operator}
    (hgroup : inside? part = none) (hbalanced : balanced part = true)
    (hsplit : split? part = some (operator, left, right)) (levels : Nat) :
    evaluatePart registry expression (levels + 1) part =
      (do let x ← evaluatePart registry expression levels left
          let y ← evaluatePart registry expression levels right
          operate expression operator part x y) := by
  have hpart : part.isEmpty = false := by
    cases part with
    | nil =>
      rw [show split? [] = none by decide] at hsplit
      exact absurd hsplit (by simp)
    | cons c part => rfl
  rw [evaluatePart, hpart, hgroup, hbalanced, hsplit]
  rfl

/-- A text that is neither split nor a group is an operand. -/
theorem evaluatePart_of_leaf {part : List CodePoint} (hgroup : inside? part = none)
    (hbalanced : balanced part = true) (hsplit : split? part = none) (levels : Nat) :
    evaluatePart registry expression (levels + 1) part = operand registry expression part := by
  rw [evaluatePart, operand, hgroup, hbalanced, hsplit]
  rfl

/-- A text that is not balanced fails as a whole, before any part of it is looked at. -/
theorem evaluatePart_of_not_balanced {part : List CodePoint} (h : balanced part = false)
    (levels : Nat) :
    evaluatePart registry expression (levels + 1) part =
      .error (.unit (.unresolved .unmatchedParenthesis ⟨part⟩ expression)) := by
  have hpart : part.isEmpty = false := by
    cases part with
    | nil => exact absurd h (by decide)
    | cons c part => rfl
  rw [evaluatePart, hpart, inside?_eq_none_of_not_balanced h, h]
  rfl

/-- An expression that is not balanced fails as a whole, whatever else is wrong with it. -/
theorem evaluate_of_not_balanced (h : balanced expression.points = false) :
    evaluate registry expression =
      .error (.unit (.unresolved .unmatchedParenthesis expression expression)) := by
  rw [evaluate, show maxNesting = 899 + 1 from rfl, evaluatePart_of_not_balanced h]
  rfl

end Expression

namespace Derivation

open Expression

variable {operators : List Operator}

/-! ### Where a derived text is split -/

theorem split?_leaf {text : List CodePoint} (h : IsLeaf text) : split? text = none := by
  refine List.findSome?_eq_none_iff.2 fun operator _ ↦ ?_
  rw [sides?_eq_none (balanced_iff.1 h.balanced) (h.free operator)]
  rfl

/-- A split phrase is split by the operator of its level: the looser ones are not found. -/
theorem split?_text_split {operator : Operator}
    (hsuffix : operator :: operators <:+ Operator.byLooseness) (left : Derivation operators)
    (right : Derivation (operator :: operators)) :
    split? (split left right).text = some (operator, left.text, right.text) := by
  obtain ⟨looser, hlooser⟩ := hsuffix
  have hnodup : (looser ++ operator :: operators).Nodup := hlooser ▸ by decide
  -- `split?` tries the looser operators first, none of which is outside parentheses here
  have hnone : looser.findSome? (fun o ↦
      (sides? o.sign 0 (split left right).text).map fun sides ↦ (o, sides)) = none := by
    refine List.findSome?_eq_none_iff.2 fun o ho ↦ ?_
    have hnotMem : o ∉ operator :: operators := fun hmem ↦
      (List.nodup_append.1 hnodup).2.2 o ho o hmem rfl
    rw [sides?_text_eq_none _ hnotMem]
    rfl
  have hnotMem : operator ∉ operators :=
    (List.nodup_cons.1 (List.nodup_append.1 hnodup).2.1).1
  rw [split?, ← hlooser, List.findSome?_append, hnone, Option.none_or, List.findSome?_cons,
    sides?_text_split hnotMem]
  rfl

/-! ### The fold -/

/-- Folds a derivation: a function of the texts of the leaves, and for every split phrase one of its
operator, its text and the results for its sides. -/
def fold {α : Type} (onLeaf : List CodePoint → α)
    (onSplit : Operator → List CodePoint → α → α → α) :
    {operators : List Operator} → Derivation operators → α
  | _, tighter phrase => phrase.fold onLeaf onSplit
  | operator :: _, split left right =>
    onSplit operator (split left right).text (left.fold onLeaf onSplit) (right.fold onLeaf onSplit)
  | _, group inside => inside.fold onLeaf onSplit
  | _, leaf text _ => onLeaf text

/-- The fold of the operations over the values of the leaves. -/
def outcome (registry : Registry) (expression : RawText) (d : Derivation operators) :
    Except Failure Scalar :=
  d.fold (operand registry expression) fun operator part left right ↦ do
    let x ← left
    let y ← right
    operate expression operator part x y

/-- The levels of nesting: groups and operands are one level deeper. -/
def nesting : {operators : List Operator} → Derivation operators → Nat
  | _, tighter phrase => phrase.nesting
  | _, split left right => max left.nesting right.nesting + 1
  | _, group inside => inside.nesting + 1
  | _, leaf _ _ => 1

variable {registry : Registry} {expression : RawText}

theorem outcome_split {operator : Operator} (left : Derivation operators)
    (right : Derivation (operator :: operators)) :
    (split left right).outcome registry expression =
      (do let x ← left.outcome registry expression
          let y ← right.outcome registry expression
          operate expression operator (split left right).text x y) :=
  rfl

/-- A derived text evaluates to the fold over its derivation, unless it is nested too deeply. -/
theorem evaluatePart_text (hsuffix : operators <:+ Operator.byLooseness)
    (d : Derivation operators) (levels : Nat) :
    evaluatePart registry expression levels d.text = d.outcome registry expression ∨
      levels < d.nesting ∧
        evaluatePart registry expression levels d.text = .error (tooDeep expression) := by
  induction d generalizing levels with
  | tighter phrase ih => exact ih ((List.suffix_cons _ _).trans hsuffix) levels
  | @split operator operators left right ihleft ihright =>
    cases levels with
    | zero => exact Or.inr ⟨by simp [nesting], evaluatePart_zero _ _ _⟩
    | succ levels =>
      rw [evaluatePart_of_split? (inside?_text_split left right) (split left right).balanced_text
        (split?_text_split hsuffix left right), outcome_split, nesting]
      -- the left side comes first: the right one counts only if the left one has a value
      rcases ihleft ((List.suffix_cons _ _).trans hsuffix) levels with hleft | ⟨hlt, hleft⟩
      · rw [hleft]
        rcases left.outcome registry expression with e | x
        · exact Or.inl rfl
        · rcases ihright hsuffix levels with hright | ⟨hlt, hright⟩
          · rw [hright]
            exact Or.inl rfl
          · rw [hright]
            exact Or.inr ⟨by omega, rfl⟩
      · rw [hleft]
        exact Or.inr ⟨by omega, rfl⟩
  | group inside ih =>
    cases levels with
    | zero => exact Or.inr ⟨by simp [nesting], evaluatePart_zero _ _ _⟩
    | succ levels =>
      rw [evaluatePart_of_inside? (inside?_text_group inside), nesting]
      rcases ih (List.suffix_refl _) levels with h | ⟨hlt, h⟩
      · exact Or.inl h
      · exact Or.inr ⟨by omega, h⟩
  | leaf text isLeaf =>
    cases levels with
    | zero => exact Or.inr ⟨by simp [nesting], evaluatePart_zero _ _ _⟩
    | succ levels =>
      exact Or.inl (evaluatePart_of_leaf (inside?_leaf isLeaf) isLeaf.balanced
        (split?_leaf isLeaf) levels)

/-! ### The first failure -/

/-- The nodes of a derivation in the order of evaluation: operands before operations, left before
right. -/
def nodes : {operators : List Operator} → Derivation operators →
    List ((operators : List Operator) × Derivation operators)
  | _, tighter phrase => phrase.nodes
  | _, split left right => left.nodes ++ right.nodes ++ [⟨_, split left right⟩]
  | _, group inside => inside.nodes ++ [⟨_, group inside⟩]
  | _, leaf text isLeaf => [⟨_, leaf text isLeaf⟩]

/-- The failure that arises at a node itself: a leaf without a value, or an operation on values of
both sides that has no finite result. -/
def fault? (registry : Registry) (expression : RawText) :
    {operators : List Operator} → Derivation operators → Option Failure
  | _, tighter _ | _, group _ => none
  | operator :: _, split left right =>
    match left.outcome registry expression, right.outcome registry expression with
    | .ok x, .ok y => failureOf (operate expression operator (split left right).text x y)
    | _, _ => none
  | _, leaf text _ => failureOf (operand registry expression text)

/-- The fold fails with the failure of the first node that fails, and only then. -/
theorem findSome?_nodes (d : Derivation operators) :
    d.nodes.findSome? (fun node ↦ node.2.fault? registry expression) =
      failureOf (d.outcome registry expression) := by
  induction d with
  | tighter phrase ih => exact ih
  | split left right ihleft ihright =>
    rw [nodes, List.findSome?_append, List.findSome?_append, ihleft, ihright, outcome_split,
      List.findSome?_singleton, fault?]
    rcases left.outcome registry expression with e | x
    · rfl
    · rcases right.outcome registry expression with e | y <;> rfl
  | group inside ih =>
    rw [nodes, List.findSome?_append, ih, List.findSome?_singleton, fault?, Option.or_none]
    rfl
  | leaf text isLeaf => rw [nodes, List.findSome?_singleton]; rfl

/-! ### Whole expressions -/

/-- What an expression of this derivation evaluates to: the fold, which must not be zero. -/
def result (registry : Registry) (expression : RawText) (d : Derivation operators) :
    Except Failure Scalar := do
  let multiplier ← d.outcome registry expression
  if multiplier.isZero then .error (.unit (.unresolved .zeroMultiplier expression expression))
  else .ok multiplier

/-- Enough levels are as good as no limit on them. -/
theorem evaluatePart_eq_outcome {d : Derivation Operator.byLooseness} {levels : Nat}
    (h : d.nesting ≤ levels) :
    evaluatePart registry expression levels d.text = d.outcome registry expression := by
  rcases evaluatePart_text (List.suffix_refl _) d levels with heq | ⟨hlt, -⟩
  · exact heq
  · exact absurd hlt (by omega)

theorem evaluate_text {d : Derivation Operator.byLooseness} (h : d.text = expression.points) :
    evaluate registry expression = d.result registry expression ∨
      maxNesting < d.nesting ∧ evaluate registry expression = .error (tooDeep expression) := by
  rw [evaluate, result, ← h]
  rcases evaluatePart_text (List.suffix_refl _) d maxNesting with heq | ⟨hlt, heq⟩
  · rw [heq]
    exact Or.inl rfl
  · rw [heq]
    exact Or.inr ⟨hlt, rfl⟩

/-- **An expression evaluates to the fold over its one derivation.** The balanced texts are those
with a derivation, which is unique; any other text fails as a whole.

With levels enough for the derivation the evaluation is the fold of the operations over the values
of the leaves; with fewer it may also end in the failure that says so. The failure of the fold is
that of the first node that fails, operands before operations and left before right. -/
theorem evaluate_follows_derivation (registry : Registry) (expression : RawText) :
    (balanced expression.points = true ↔
      ∃! d : Derivation Operator.byLooseness, d.text = expression.points) ∧
    (balanced expression.points = false →
      evaluate registry expression =
        .error (.unit (.unresolved .unmatchedParenthesis expression expression))) ∧
    ∀ d : Derivation Operator.byLooseness, d.text = expression.points →
      (evaluate registry expression = d.result registry expression ∨
        maxNesting < d.nesting ∧
          evaluate registry expression = .error (tooDeep expression)) ∧
      (∀ levels, d.nesting ≤ levels →
        evaluatePart registry expression levels expression.points =
          d.outcome registry expression) ∧
      failureOf (d.outcome registry expression) =
        d.nodes.findSome? (fun node ↦ node.2.fault? registry expression) := by
  refine ⟨balanced_iff_existsUnique_derivation, evaluate_of_not_balanced,
    fun d h ↦ ⟨evaluate_text h, ?_, d.findSome?_nodes.symm⟩⟩
  intro levels hlevels
  rw [← h]
  exact evaluatePart_eq_outcome hlevels

end Derivation

end Metrology
