import Metrology.Proofs.Expression.Evaluation
import Metrology.Proofs.Registry.Valid

/-!
# Evaluation without a limit

`Expression.evaluate` has levels of nesting to spend, one for every group and every operand on the
way to a part. Here it is compared with the evaluation that has no such limit, given by its rules:
`Expression.Evaluates` relates a part to what its evaluation ends in and to how deep that goes.

* The evaluation without a limit ends on every text, in one way only (`exists_evaluates`,
  `Evaluates.unique`). It goes at most as deep as the derivation of the text is nested, and exactly
  as deep if nothing fails (`exists_evaluates_text`): after a failure on the left of an operator the
  right side is not looked at.
* With enough levels for that depth the limited evaluation ends in the same, with fewer it ends in
  the failure that says so (`Evaluates.evaluatePart_eq`). No other failure, and no value, comes of
  running out of levels.
-/

namespace Metrology

open Parts

namespace Expression

/-- The evaluation of a part of an expression, without a limit: how many levels it needs, its own
one included, and what it ends in. -/
inductive Evaluates (registry : Registry) (expression : RawText) :
    List CodePoint → Nat → Except Failure Scalar → Prop where
  | unmatched {part : List CodePoint} (hbalanced : balanced part = false) :
      Evaluates registry expression part 1
        (.error (.unit (.unresolved .unmatchedParenthesis ⟨part⟩ expression)))
  | group {part inside : List CodePoint} {depth : Nat} {outcome : Except Failure Scalar}
      (hgroup : inside? part = some inside)
      (hinside : Evaluates registry expression inside depth outcome) :
      Evaluates registry expression part (depth + 1) outcome
  /-- The left side fails, and the right one is not evaluated. -/
  | left {part left right : List CodePoint} {operator : Operator} {depth : Nat} {e : Failure}
      (hgroup : inside? part = none) (hbalanced : balanced part = true)
      (hsplit : split? part = some (operator, left, right))
      (hleft : Evaluates registry expression left depth (.error e)) :
      Evaluates registry expression part (depth + 1) (.error e)
  /-- The left side has a value, and the right one is evaluated after it. -/
  | both {part left right : List CodePoint} {operator : Operator} {depth depth' : Nat} {x : Scalar}
      {outcome : Except Failure Scalar} (hgroup : inside? part = none)
      (hbalanced : balanced part = true) (hsplit : split? part = some (operator, left, right))
      (hleft : Evaluates registry expression left depth (.ok x))
      (hright : Evaluates registry expression right depth' outcome) :
      Evaluates registry expression part (max depth depth' + 1)
        (outcome >>= operate expression operator part x)
  | operand {part : List CodePoint} (hgroup : inside? part = none)
      (hbalanced : balanced part = true)
      (hsplit : split? part = none) :
      Evaluates registry expression part 1 (operand registry expression part)

variable {registry : Registry} {expression : RawText} {part : List CodePoint} {depth : Nat}
  {outcome : Except Failure Scalar}

/-! ### Levels to spend -/

/-- **The limited evaluation is the one without a limit, or says that it ran out of levels.** -/
theorem Evaluates.evaluatePart_eq (h : Evaluates registry expression part depth outcome)
    (levels : Nat) :
    evaluatePart registry expression levels part =
      if depth ≤ levels then outcome else .error (tooDeep expression) := by
  induction h generalizing levels with
  | unmatched hbalanced =>
    cases levels with
    | zero => exact evaluatePart_zero _ _ _
    | succ levels => rw [evaluatePart_of_not_balanced hbalanced, if_pos (by omega)]
  | group hgroup _ ih =>
    cases levels with
    | zero => exact evaluatePart_zero _ _ _
    | succ levels => simp only [evaluatePart_of_inside? hgroup, ih, Nat.add_le_add_iff_right]
  | left hgroup hbalanced hsplit _ ih =>
    cases levels with
    | zero => exact evaluatePart_zero _ _ _
    | succ levels =>
      simp only [evaluatePart_of_split? hgroup hbalanced hsplit, ih, Nat.add_le_add_iff_right]
      split <;> rfl
  | @both _ _ _ _ depth depth' _ _ hgroup hbalanced hsplit _ _ ihleft ihright =>
    cases levels with
    | zero => exact evaluatePart_zero _ _ _
    | succ levels =>
      simp only [evaluatePart_of_split? hgroup hbalanced hsplit, ihleft, ihright,
        Nat.add_le_add_iff_right, Nat.max_le]
      by_cases hleft : depth ≤ levels
      · by_cases hright : depth' ≤ levels
        · rw [if_pos hleft, if_pos hright, if_pos ⟨hleft, hright⟩]
          rfl
        · rw [if_pos hleft, if_neg hright, if_neg (not_and_of_not_right _ hright)]
          rfl
      · rw [if_neg hleft, if_neg (not_and_of_not_left _ hleft)]
        rfl
  | operand hgroup hbalanced hsplit =>
    cases levels with
    | zero => exact evaluatePart_zero _ _ _
    | succ levels => rw [evaluatePart_of_leaf hgroup hbalanced hsplit, if_pos (by omega)]

/-! ### One way to end -/

/-- A part is evaluated in one way. -/
theorem Evaluates.unique (h : Evaluates registry expression part depth outcome) {depth' : Nat}
    {outcome' : Except Failure Scalar}
    (h' : Evaluates registry expression part depth' outcome') :
    depth' = depth ∧ outcome' = outcome := by
  induction h generalizing depth' outcome' with
  | unmatched hbalanced =>
    have hgroup := inside?_eq_none_of_not_balanced hbalanced
    cases h' <;> simp_all
  | group hgroup _ ih =>
    cases h' with
    | unmatched hbalanced =>
      rw [inside?_eq_none_of_not_balanced hbalanced] at hgroup
      exact absurd hgroup (by simp)
    | group hgroup' hinside' =>
      obtain rfl := Option.some_inj.1 (hgroup.symm.trans hgroup')
      obtain ⟨rfl, rfl⟩ := ih hinside'
      exact ⟨rfl, rfl⟩
    | left hnone | both hnone | operand hnone =>
      exact absurd (hgroup.symm.trans hnone) (by simp)
  | left hgroup hbalanced hsplit _ ih =>
    cases h' with
    | left _ _ hsplit' hleft' =>
      obtain ⟨rfl, rfl, rfl⟩ : _ ∧ _ ∧ _ := by simpa using hsplit.symm.trans hsplit'
      obtain ⟨rfl, heq⟩ := ih hleft'
      exact ⟨rfl, heq⟩
    | both _ _ hsplit' hleft' =>
      obtain ⟨rfl, rfl, rfl⟩ : _ ∧ _ ∧ _ := by simpa using hsplit.symm.trans hsplit'
      exact absurd (ih hleft').2 (by simp)
    | _ => simp_all
  | both hgroup hbalanced hsplit _ _ ihleft ihright =>
    cases h' with
    | left _ _ hsplit' hleft' =>
      obtain ⟨rfl, rfl, rfl⟩ : _ ∧ _ ∧ _ := by simpa using hsplit.symm.trans hsplit'
      exact absurd (ihleft hleft').2 (by simp)
    | both _ _ hsplit' hleft' hright' =>
      obtain ⟨rfl, rfl, rfl⟩ : _ ∧ _ ∧ _ := by simpa using hsplit.symm.trans hsplit'
      obtain ⟨rfl, heq⟩ := ihleft hleft'
      obtain ⟨rfl, rfl⟩ := ihright hright'
      obtain rfl := Except.ok.inj heq
      exact ⟨rfl, rfl⟩
    | _ => simp_all
  | operand hgroup hbalanced hsplit => cases h' <;> simp_all

/-! ### It ends -/

/-- A derived text is evaluated to the fold, and as deep as the derivation is nested unless
something fails. -/
theorem exists_evaluates_text {operators : List Operator}
    (hsuffix : operators <:+ Operator.byLooseness) (d : Derivation operators) :
    ∃ depth, Evaluates registry expression d.text depth (d.outcome registry expression) ∧
      depth ≤ d.nesting ∧ ∀ z, d.outcome registry expression = .ok z → depth = d.nesting := by
  induction d with
  | tighter phrase ih => exact ih ((List.suffix_cons _ _).trans hsuffix)
  | split left right ihleft ihright =>
    have hgroup := Derivation.inside?_text_split left right
    have hbalanced := (Derivation.split left right).balanced_text
    have hsplit := Derivation.split?_text_split hsuffix left right
    obtain ⟨depth, hleft, hle, heq⟩ := ihleft ((List.suffix_cons _ _).trans hsuffix)
    obtain ⟨depth', hright, hle', heq'⟩ := ihright hsuffix
    rw [Derivation.outcome_split, Derivation.nesting]
    rcases hx : left.outcome registry expression with e | x
    · rw [hx] at hleft
      exact ⟨depth + 1, .left hgroup hbalanced hsplit hleft, by omega,
        fun z hz ↦ absurd hz (by simp [bind, Except.bind])⟩
    · rw [hx] at hleft heq
      refine ⟨max depth depth' + 1, .both hgroup hbalanced hsplit hleft hright, by omega,
        fun z hz ↦ ?_⟩
      obtain ⟨_, -, hright⟩ := exists_of_bind_eq_ok hz
      obtain ⟨y, hy, -⟩ := exists_of_bind_eq_ok hright
      rw [heq x rfl, heq' y hy]
  | group inside ih =>
    obtain ⟨depth, hinside, hle, heq⟩ := ih (List.suffix_refl _)
    exact ⟨depth + 1, .group (Derivation.inside?_text_group inside) hinside, Nat.succ_le_succ hle,
      fun z hz ↦ congrArg (· + 1) (heq z hz)⟩
  | leaf text isLeaf =>
    exact ⟨1, .operand (Derivation.inside?_leaf isLeaf) isLeaf.balanced
      (Derivation.split?_leaf isLeaf), le_rfl, fun _ _ ↦ rfl⟩

/-- The evaluation without a limit ends on every text. -/
theorem exists_evaluates (registry : Registry) (expression : RawText) (part : List CodePoint) :
    ∃ depth outcome, Evaluates registry expression part depth outcome := by
  rcases hbalanced : balanced part with _ | _
  · exact ⟨1, _, .unmatched hbalanced⟩
  · obtain ⟨d, rfl, -⟩ := Derivation.balanced_iff_existsUnique_derivation.1 hbalanced
    obtain ⟨depth, h, -⟩ := exists_evaluates_text (List.suffix_refl _) d
    exact ⟨depth, _, h⟩

/-! ### Whole expressions -/

/-- What the outcome of its text makes of an expression: the multiplier must not be zero. -/
def refuseZero (expression : RawText) (outcome : Except Failure Scalar) :
    Except Failure Scalar := do
  let multiplier ← outcome
  if multiplier.isZero then .error (.unit (.unresolved .zeroMultiplier expression expression))
  else .ok multiplier

/-- **The limit on nesting never makes a wrong answer.** The evaluation without a limit ends on
every text, in one way, at a depth that is at most the nesting of the derivation, and is just that
if no part fails. With levels enough for the depth, and four hundred are always given, an expression
has the outcome that it has without a limit; otherwise it fails as a whole, as nested too deeply. -/
theorem evaluate_within_limit (registry : Registry) (expression : RawText) :
    ∃ depth outcome,
      (∀ depth' outcome', Evaluates registry expression expression.points depth' outcome' ↔
        depth' = depth ∧ outcome' = outcome) ∧
      (∀ d : Derivation Operator.byLooseness, d.text = expression.points →
        depth ≤ d.nesting ∧ ((∃ multiplier, outcome = .ok multiplier) → depth = d.nesting)) ∧
      (∀ levels, refuseZero expression
          (evaluatePart registry expression levels expression.points) =
        if depth ≤ levels then refuseZero expression outcome
        else .error (.unit (.unresolved .nestedTooDeeply expression expression))) ∧
      (evaluate registry expression = refuseZero expression outcome ∨
        evaluate registry expression =
          .error (.unit (.unresolved .nestedTooDeeply expression expression))) ∧
      (depth ≤ 400 → evaluate registry expression = refuseZero expression outcome) := by
  obtain ⟨depth, outcome, h⟩ := exists_evaluates registry expression expression.points
  have hlevels : ∀ levels, refuseZero expression
      (evaluatePart registry expression levels expression.points) =
        if depth ≤ levels then refuseZero expression outcome
        else .error (.unit (.unresolved .nestedTooDeeply expression expression)) := by
    intro levels
    rw [h.evaluatePart_eq]
    split <;> rfl
  have hlimit : evaluate registry expression = if depth ≤ maxNesting then _ else _ :=
    hlevels maxNesting
  refine ⟨depth, outcome, fun depth' outcome' ↦ ⟨h.unique, ?_⟩, fun d hd ↦ ?_, hlevels, ?_, ?_⟩
  · rintro ⟨rfl, rfl⟩
    exact h
  · obtain ⟨depth', h', hle, heq⟩ := exists_evaluates_text (List.suffix_refl _) d
    obtain ⟨rfl, rfl⟩ := h.unique (hd ▸ h')
    exact ⟨hle, fun ⟨multiplier, hok⟩ ↦ heq multiplier hok⟩
  · rw [hlimit]
    split
    · exact Or.inl rfl
    · exact Or.inr rfl
  · intro hdepth
    rw [hlimit, if_pos (hdepth.trans (by decide))]

end Expression

end Metrology
