import Mathlib.Data.List.Infix
import Metrology.Proofs.Expression.Evaluation

/-!
# Parentheses without a partner

Whether the parentheses of a text are balanced can be said by counting them: no beginning of the
text closes more than it opens, and the whole closes as many as it opens (`Parts.Balances`). That is
what the scan of an expression decides (`balanced_iff_balances`), because the depth after a text is
the difference of the two counts (`depthAfter_eq_some_iff`).

An expression is scanned anew at every level, and each scan could refuse a part of it. It never
does below the whole expression: a group and the sides of an operator in a balanced text are
balanced (`balances_inside`, `balances_sides`), and the other refusals are of other classes
(`not_isUnmatched_of_operand`, `not_isUnmatched_of_operate`). So the evaluation of a balanced part
is not refused that way at any level (`not_isUnmatched_of_evaluatePart`).
-/

namespace Metrology

namespace Parts

variable {cs : List CodePoint}

/-! ### Balance by counting -/

/-- No beginning of a text closes more parentheses than it opens, and the whole closes as many as it
opens. -/
structure Balances (cs : List CodePoint) : Prop where
  close_le_open : ∀ l, l <+: cs → l.count (.char ')') ≤ l.count (.char '(')
  close_eq_open : cs.count (.char ')') = cs.count (.char '(')

/-- The depth after a text is what it opens, on top of the depth before it, less what it closes; it
is defined as long as that never falls below zero. -/
theorem depthAfter_eq_some_iff {depth after : Nat} : depthAfter depth cs = some after ↔
    (∀ l, l <+: cs → l.count (.char ')') ≤ depth + l.count (.char '(')) ∧
      after + cs.count (.char ')') = depth + cs.count (.char '(') := by
  induction cs generalizing depth with
  | nil => simp [eq_comm]
  | cons c cs ih =>
    -- the beginnings of `c :: cs` are the empty one and `c` before those of `cs`
    have hbeginnings : (∀ l, l <+: c :: cs → l.count (.char ')') ≤ depth + l.count (.char '(')) ↔
        ∀ l, l <+: cs → (c :: l).count (.char ')') ≤ depth + (c :: l).count (.char '(') := by
      simp only [List.prefix_cons_iff]
      refine ⟨fun h l hl ↦ h _ (Or.inr ⟨l, rfl, hl⟩), ?_⟩
      rintro h l (rfl | ⟨l, rfl, hl⟩)
      · exact Nat.zero_le _
      · exact h l hl
    rw [hbeginnings, depthAfter_cons]
    by_cases hopen : c = .char '('
    · subst hopen
      rw [nextDepth_open, Option.bind_some, ih]
      refine and_congr (forall₂_congr fun l _ ↦ ?_) ?_ <;> simp <;> omega
    · by_cases hclose : c = .char ')'
      · subst hclose
        cases depth with
        | zero =>
          -- the closing parenthesis alone is a beginning that closes too much
          refine iff_of_false (by simp) fun h ↦ ?_
          simpa using h.1 [] List.nil_prefix
        | succ depth =>
          rw [nextDepth_close_succ, Option.bind_some, ih]
          refine and_congr (forall₂_congr fun l _ ↦ ?_) ?_ <;> simp <;> omega
      · rw [nextDepth_of_ne hopen hclose, Option.bind_some, ih]
        simp [hopen, hclose]

/-- What the scan of an expression decides. -/
theorem balanced_iff_balances : balanced cs = true ↔ Balances cs := by
  rw [balanced_iff, depthAfter_eq_some_iff]
  simp only [Nat.zero_add]
  exact ⟨fun h ↦ ⟨h.1, h.2⟩, fun h ↦ ⟨h.close_le_open, h.close_eq_open⟩⟩

instance : Decidable (Balances cs) := decidable_of_iff _ balanced_iff_balances

example : Balances (RawText.ofString "m^3/(kg s^2)").points ∧
    ¬Balances (RawText.ofString "m)(s").points := by decide

/-! ### What balanced texts fall into -/

/-- The inside of a group is balanced, whatever the group is part of. -/
theorem balances_inside {inside : List CodePoint} (h : inside? cs = some inside) :
    Balances inside :=
  balanced_iff_balances.1 (balanced_iff.2 (inside?_eq_some_iff.1 h).2)

/-- Where the scan for a sign splits a text, the sign stands outside parentheses. -/
theorem eq_append_of_sides? {sign : CodePoint} {after : Nat} {l r : List CodePoint}
    (hdepth : depthAfter 0 cs = some after) (h : sides? sign 0 cs = some (l, r)) :
    cs = l ++ sign :: r ∧ depthAfter 0 l = some 0 := by
  by_cases hfree : Free sign 0 cs
  · rw [sides?_eq_none hdepth hfree] at h
    exact absurd h (by simp)
  · obtain ⟨l', r', rfl, hl, hlfree⟩ := exists_first_of_not_free hdepth hfree
    rw [sides?_append_cons hl hlfree, Option.some_inj, Prod.mk.injEq] at h
    obtain ⟨rfl, rfl⟩ := h
    exact ⟨rfl, hl⟩

/-- An operator that splits a text stands outside parentheses. -/
theorem eq_append_of_split? {operator : Operator} {after : Nat} {left right : List CodePoint}
    (hdepth : depthAfter 0 cs = some after) (h : split? cs = some (operator, left, right)) :
    cs = left ++ operator.sign :: right ∧ depthAfter 0 left = some 0 := by
  obtain ⟨operator', -, hsome⟩ := List.exists_of_findSome?_eq_some h
  obtain ⟨⟨l, r⟩, hsides, heq⟩ := Option.map_eq_some_iff.1 hsome
  obtain ⟨rfl, rfl, rfl⟩ : operator' = operator ∧ l = left ∧ r = right := by simpa using heq
  exact eq_append_of_sides? hdepth hsides

/-- Both sides of an operator in a balanced text are balanced. -/
theorem balances_sides (hcs : Balances cs) {operator : Operator} {left right : List CodePoint}
    (h : split? cs = some (operator, left, right)) : Balances left ∧ Balances right := by
  have hdepth := balanced_iff.1 (balanced_iff_balances.2 hcs)
  obtain ⟨rfl, hleft⟩ := eq_append_of_split? hdepth h
  -- the sign leaves the depth at zero, so the right side starts there as well
  have hright : depthAfter 0 right = some 0 := by
    rwa [depthAfter_append, hleft, Option.bind_some, depthAfter_cons, nextDepth_sign] at hdepth
  exact ⟨balanced_iff_balances.1 (balanced_iff.2 hleft),
    balanced_iff_balances.1 (balanced_iff.2 hright)⟩

end Parts

/-! ### The class of the refusal -/

/-- A failure of the class that parentheses without a partner are reported under. -/
def Failure.IsUnmatched (e : Failure) : Prop := e.className = "UnmatchedParenthesisError"

namespace Expression

open Parts

variable {r : Registry} {expression : RawText} {part : List CodePoint} {e : Failure}

/-- Of the faults only a parenthesis without a partner is of that class. -/
theorem not_isUnmatched_of_ne {fault : Fault} (h : fault ≠ .unmatchedParenthesis)
    (text : RawText) : ¬(Failure.unit (.unresolved fault text expression)).IsUnmatched := by
  cases fault with
  | unmatchedParenthesis => exact absurd rfl h
  | _ => simp [Failure.IsUnmatched, Failure.className, UnitError.className]

theorem not_isUnmatched_of_operand (h : operand r expression part = .error e) :
    ¬e.IsUnmatched := by
  rw [operand] at h
  split at h
  · exact Except.error.inj h ▸ not_isUnmatched_of_ne (by simp) _
  · rcases hleaf : leaf r expression part with cause | multiplier
    · rw [hleaf] at h
      obtain rfl : Failure.unit cause = e := Except.error.inj h
      rw [leaf] at hleaf
      split at hleaf
      · exact absurd hleaf (by simp)
      · split at hleaf
        · exact absurd hleaf (by simp)
        · exact Except.error.inj hleaf ▸ not_isUnmatched_of_ne (by simp) _
      · split at hleaf <;> exact Except.error.inj hleaf ▸ not_isUnmatched_of_ne (by simp) _
    · rw [hleaf] at h
      exact absurd h (by simp [Except.mapError])

theorem not_isUnmatched_of_operate {operator : Operator} {x y : Scalar}
    (h : operate expression operator part x y = .error e) : ¬e.IsUnmatched := by
  rw [operate] at h
  split at h
  · exact Except.error.inj h ▸ not_isUnmatched_of_ne (by simp) _
  · split at h
    · exact absurd h (by simp)
    · exact Except.error.inj h ▸ by simp [Failure.IsUnmatched, Failure.className]
  · split at h
    · exact absurd h (by simp)
    · exact Except.error.inj h ▸ not_isUnmatched_of_ne (by simp) _

/-! ### Evaluation -/

/-- A balanced part is not refused for a parenthesis at any level of evaluation: what it falls into
is balanced again. -/
theorem not_isUnmatched_of_evaluatePart (levels : Nat) (hpart : Balances part)
    (h : evaluatePart r expression levels part = .error e) : ¬e.IsUnmatched := by
  induction levels generalizing part e with
  | zero =>
    rw [evaluatePart_zero] at h
    exact Except.error.inj h ▸ not_isUnmatched_of_ne (by simp) _
  | succ levels ih =>
    have hbalanced := balanced_iff_balances.2 hpart
    rcases hgroup : inside? part with _ | inside
    · rcases hsplit : split? part with _ | ⟨operator, left, right⟩
      · rw [evaluatePart_of_leaf hgroup hbalanced hsplit] at h
        exact not_isUnmatched_of_operand h
      · obtain ⟨hleft, hright⟩ := balances_sides hpart hsplit
        rw [evaluatePart_of_split? hgroup hbalanced hsplit] at h
        rcases hx : evaluatePart r expression levels left with e' | x
        · rw [hx] at h
          exact ih hleft (hx.trans h)
        · rcases hy : evaluatePart r expression levels right with e' | y
          · rw [hx, hy] at h
            exact ih hright (hy.trans h)
          · rw [hx, hy] at h
            exact not_isUnmatched_of_operate h
    · rw [evaluatePart_of_inside? hgroup] at h
      exact ih (balances_inside hgroup) h

theorem not_isUnmatched_of_evaluate (hexpression : Balances expression.points)
    (h : evaluate r expression = .error e) : ¬e.IsUnmatched := by
  rw [evaluate] at h
  rcases hvalue : evaluatePart r expression maxNesting expression.points with e' | multiplier
  · rw [hvalue] at h
    exact not_isUnmatched_of_evaluatePart maxNesting hexpression (hvalue.trans h)
  · rw [hvalue] at h
    dsimp only [bind, Except.bind] at h
    split at h
    · exact Except.error.inj h ▸ not_isUnmatched_of_ne (by simp) _
    · exact absurd h (by simp)

/-- **Parentheses without a partner are found first, and nowhere else.** Over every registry an
expression is refused for one exactly if its parentheses are not balanced, whatever else is wrong
with it; it is refused as a whole then, and what is registered makes no difference. In a balanced
text groups and the sides of operators are balanced, and at no level is a balanced part refused for
a parenthesis. -/
theorem unmatched_iff_not_balances (expression : RawText) :
    (∀ r : Registry,
      ((∃ e, evaluate r expression = .error e ∧ e.className = "UnmatchedParenthesisError") ↔
        ¬Balances expression.points) ∧
      (¬Balances expression.points → evaluate r expression =
        .error (.unit (.unresolved .unmatchedParenthesis expression expression)))) ∧
    ∀ part : List CodePoint, Balances part →
      (∀ inside, inside? part = some inside → Balances inside) ∧
      (∀ operator left right, split? part = some (operator, left, right) →
        Balances left ∧ Balances right) ∧
      ∀ (r : Registry) (levels : Nat) (e : Failure),
        evaluatePart r expression levels part = .error e →
          e.className ≠ "UnmatchedParenthesisError" := by
  have hrefused : ∀ r : Registry, ¬Balances expression.points → evaluate r expression =
      .error (.unit (.unresolved .unmatchedParenthesis expression expression)) := by
    intro r h
    rw [← balanced_iff_balances, Bool.not_eq_true] at h
    exact evaluate_of_not_balanced h
  refine ⟨fun r ↦ ⟨⟨?_, fun h ↦ ⟨_, hrefused r h, rfl⟩⟩, hrefused r⟩, fun part hpart ↦ ⟨?_, ?_, ?_⟩⟩
  · rintro ⟨e, he, hclass⟩ hexpression
    exact not_isUnmatched_of_evaluate hexpression he hclass
  · exact fun inside ↦ balances_inside
  · exact fun operator left right ↦ balances_sides hpart
  · exact fun r levels e he ↦ not_isUnmatched_of_evaluatePart levels hpart he

end Expression

end Metrology
