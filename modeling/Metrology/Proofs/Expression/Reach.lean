import Metrology.Proofs.Expression.Balance

/-!
# What an evaluation looks up

The registry enters the evaluation of an expression at the leaves that the evaluation reaches, and
nowhere else. Which ones these are is said by the rules of `Expression.Reaches`: the sides of
operators in their order, the right one only if the left one has a value, and groups, as far down
as the levels last.

Two evaluations whose operands end alike at the reached leaves end alike (`evaluatePart_alike`),
for any reading of "alike" that relates no value to another one. The one induction here serves
registries that give the same outcomes, and registries that give the same outcomes but for the
reasons.
-/

namespace Metrology

open Parts

namespace Expression

/-- The evaluation of a part within a number of levels reaches a leaf. -/
inductive Reaches (r : Registry) (expression : RawText) :
    Nat → List CodePoint → List CodePoint → Prop where
  | leaf {levels : Nat} {part : List CodePoint} (hne : part ≠ []) (hgroup : inside? part = none)
      (hbalanced : balanced part = true) (hsplit : split? part = none) :
      Reaches r expression (levels + 1) part part
  | group {levels : Nat} {part inside leaf : List CodePoint} (hgroup : inside? part = some inside)
      (hinside : Reaches r expression levels inside leaf) :
      Reaches r expression (levels + 1) part leaf
  | left {levels : Nat} {part left right leaf : List CodePoint} {operator : Operator}
      (hgroup : inside? part = none) (hbalanced : balanced part = true)
      (hsplit : split? part = some (operator, left, right))
      (hleft : Reaches r expression levels left leaf) :
      Reaches r expression (levels + 1) part leaf
  /-- The right side is evaluated once the left one has a value. -/
  | right {levels : Nat} {part left right leaf : List CodePoint} {operator : Operator} {x : Scalar}
      (hgroup : inside? part = none) (hbalanced : balanced part = true)
      (hsplit : split? part = some (operator, left, right))
      (hleft : evaluatePart r expression levels left = .ok x)
      (hright : Reaches r expression levels right leaf) :
      Reaches r expression (levels + 1) part leaf

/-- The evaluation of an expression reaches a symbol. -/
def ReachesSymbol (r : Registry) (expression symbol : RawText) : Prop :=
  Reaches r expression maxNesting expression.points symbol.points

variable {r r' : Registry} {expression : RawText} {levels : Nat} {part leaf : List CodePoint}

/-! ### Leaves -/

/-- A derived text that no scan takes apart is a leaf. -/
theorem isLeaf_text {operators : List Operator} (hsuffix : operators <:+ Operator.byLooseness)
    (d : Derivation operators) (hgroup : inside? d.text = none) (hsplit : split? d.text = none) :
    IsLeaf d.text := by
  induction d with
  | tighter phrase ih => exact ih ((List.suffix_cons _ _).trans hsuffix) hgroup hsplit
  | split left right =>
    rw [Derivation.split?_text_split hsuffix] at hsplit
    exact absurd hsplit (by simp)
  | group inside =>
    rw [Derivation.inside?_text_group] at hgroup
    exact absurd hgroup (by simp)
  | leaf text isLeaf => exact isLeaf

/-- What is reached is a leaf. -/
theorem Reaches.isLeaf (h : Reaches r expression levels part leaf) : IsLeaf leaf := by
  induction h with
  | leaf _ hgroup hbalanced hsplit =>
    obtain ⟨d, rfl, -⟩ := Derivation.balanced_iff_existsUnique_derivation.1 hbalanced
    exact isLeaf_text (List.suffix_refl _) d hgroup hsplit
  | group _ _ ih | left _ _ _ _ ih | right _ _ _ _ _ ih => exact ih

theorem Reaches.ne_nil (h : Reaches r expression levels part leaf) : leaf ≠ [] := by
  induction h with
  | leaf hne => exact hne
  | group _ _ ih | left _ _ _ _ ih | right _ _ _ _ _ ih => exact ih

/-- What is reached stands in the text. -/
theorem Reaches.isInfix (h : Reaches r expression levels part leaf) : leaf <:+: part := by
  induction h with
  | leaf => exact List.infix_rfl
  | @group _ part inside _ hgroup _ ih =>
    obtain ⟨rfl, -⟩ := inside?_eq_some_iff.1 hgroup
    exact ih.trans ⟨[.char '('], [.char ')'], rfl⟩
  | left _ hbalanced hsplit _ ih =>
    obtain ⟨rfl, -⟩ := eq_append_of_split? (balanced_iff.1 hbalanced) hsplit
    exact ih.trans (List.prefix_append _ _).isInfix
  | right _ hbalanced hsplit _ _ ih =>
    obtain ⟨rfl, -⟩ := eq_append_of_split? (balanced_iff.1 hbalanced) hsplit
    exact ih.trans ((List.suffix_cons _ _).trans (List.suffix_append _ _)).isInfix

/-! ### Outcomes alike -/

/-- Outcomes that are the same value, or failures that are related. -/
def AlikeBy (R : Failure → Failure → Prop) : Except Failure Scalar → Except Failure Scalar → Prop
  | .ok x, .ok y => x = y
  | .error e, .error e' => R e e'
  | _, _ => False

variable {R : Failure → Failure → Prop} {outcome outcome' : Except Failure Scalar}

theorem AlikeBy.of_eq (hrefl : ∀ e, R e e) (h : outcome = outcome') :
    AlikeBy R outcome outcome' := by
  subst h
  cases outcome with
  | error e => exact hrefl e
  | ok x => rfl

theorem AlikeBy.eq (h : AlikeBy Eq outcome outcome') : outcome = outcome' := by
  cases outcome <;> cases outcome' <;> first | exact congrArg _ h | exact h.elim

/-- Outcomes stay alike when they are used alike. -/
theorem AlikeBy.bind {next next' : Scalar → Except Failure Scalar} (h : AlikeBy R outcome outcome')
    (hnext : ∀ x, outcome = .ok x → AlikeBy R (next x) (next' x)) :
    AlikeBy R (outcome >>= next) (outcome' >>= next') := by
  cases outcome with
  | error e =>
    cases outcome' with
    | error e' => exact h
    | ok y => exact h.elim
  | ok x =>
    cases outcome' with
    | error e' => exact h.elim
    | ok y =>
      obtain rfl : x = y := h
      exact hnext x rfl

/-! ### Two evaluations -/

/-- Where the operands are alike at the leaves that one evaluation reaches, the evaluations are. -/
theorem evaluatePart_alike (hrefl : ∀ e, R e e)
    (h : ∀ leaf, Reaches r expression levels part leaf →
      AlikeBy R (operand r expression leaf) (operand r' expression leaf)) :
    AlikeBy R (evaluatePart r expression levels part) (evaluatePart r' expression levels part) := by
  induction levels generalizing part with
  | zero =>
    rw [evaluatePart_zero, evaluatePart_zero]
    exact .of_eq hrefl rfl
  | succ levels ih =>
    rcases hgroup : inside? part with _ | inside
    · rcases hbalanced : balanced part with _ | _
      · rw [evaluatePart_of_not_balanced hbalanced, evaluatePart_of_not_balanced hbalanced]
        exact .of_eq hrefl rfl
      · rcases hsplit : split? part with _ | ⟨operator, left, right⟩
        · rw [evaluatePart_of_leaf hgroup hbalanced hsplit,
            evaluatePart_of_leaf hgroup hbalanced hsplit]
          by_cases hne : part = []
          · subst hne
            exact .of_eq hrefl rfl
          · exact h part (.leaf hne hgroup hbalanced hsplit)
        · rw [evaluatePart_of_split? hgroup hbalanced hsplit,
            evaluatePart_of_split? hgroup hbalanced hsplit]
          have hleft := ih fun leaf hleaf ↦ h leaf (.left hgroup hbalanced hsplit hleaf)
          -- what the right side reaches counts only if the left one has a value
          refine hleft.bind fun x hx ↦ ?_
          have hright := ih fun leaf hleaf ↦ h leaf (.right hgroup hbalanced hsplit hx hleaf)
          exact hright.bind fun y _ ↦ .of_eq hrefl rfl
    · rw [evaluatePart_of_inside? hgroup, evaluatePart_of_inside? hgroup]
      exact ih fun leaf hleaf ↦ h leaf (.group hgroup hleaf)

theorem evaluate_alike (hrefl : ∀ e, R e e)
    (h : ∀ symbol, ReachesSymbol r expression symbol →
      AlikeBy R (operand r expression symbol.points) (operand r' expression symbol.points)) :
    AlikeBy R (evaluate r expression) (evaluate r' expression) := by
  refine AlikeBy.bind (evaluatePart_alike hrefl fun leaf hleaf ↦ ?_) fun x _ ↦ .of_eq hrefl rfl
  exact h ⟨leaf⟩ hleaf

/-! ### One leaf in two registries -/

/-- Why a symbol without a multiplier cannot be a leaf. -/
def leafFault (r : Registry) (symbol : RawText) : Fault :=
  if r.nonlinear.contains symbol then .nonlinearPart else .unknownPart

/-- The nonlinear units are asked only for the reason that a leaf has no value. -/
theorem operand_of_linear?_eq {symbol : RawText} (h : r'.linear? symbol = r.linear? symbol) :
    operand r' expression symbol.points = operand r expression symbol.points ∨
      r.linear? symbol = none ∧ literal? symbol.points = none ∧
        operand r expression symbol.points =
          .error (.unit (.unresolved (leafFault r symbol) symbol expression)) ∧
        operand r' expression symbol.points =
          .error (.unit (.unresolved (leafFault r' symbol) symbol expression)) := by
  rw [operand, operand]
  split
  · exact Or.inl rfl
  · simp only [leaf, h]
    rcases hlinear : r.linear? symbol with _ | multiplier
    · rcases hread : literal? symbol.points with _ | literal
      · dsimp only [leafFault]
        exact Or.inr ⟨rfl, rfl, by split <;> rfl, by split <;> rfl⟩
      · exact Or.inl rfl
    · exact Or.inl rfl

/-- A symbol that is registered alike is the same operand. -/
theorem operand_congr {symbol : RawText} (hlinear : r'.linear? symbol = r.linear? symbol)
    (hnonlinear : r'.nonlinear? symbol = r.nonlinear? symbol) :
    operand r' expression symbol.points = operand r expression symbol.points := by
  rcases @operand_of_linear?_eq r r' expression symbol hlinear with heq | ⟨-, -, hr, hr'⟩
  · exact heq
  · have hfault : leafFault r' symbol = leafFault r symbol := by
      rw [leafFault, leafFault, SymbolMap.contains, SymbolMap.contains,
        show r'.nonlinear.get? symbol = r.nonlinear.get? symbol from hnonlinear]
    rw [hr, hr', hfault]

end Expression

end Metrology
