import Metrology.Proofs.Expression.Reach
import Metrology.Proofs.Workspace.Staleness

/-!
# Evaluation is local

The value of an expression is made of the linear entries of the leaves that its evaluation reaches.
Whatever else is registered makes no difference: entries under compound texts, groups and other
units, and the nonlinear units too, but for the reason given for a leaf without a value
(`evaluate_outcome_of_agree`).

So a run of a workspace leaves the outcome of an expression as it is unless it writes one of those
leaves (`evaluate_run`). Memoizing is no exception that matters: what is memoized under a leaf is
the double that the leaf stands for anyway.
-/

namespace Metrology

namespace Expression

variable {r r' : Registry} {expression : RawText}

/-! ### Two registries -/

/-- Failures that are the same, or are the refusal of one leaf in two registries. -/
def SameButReason (r r' : Registry) (expression : RawText) (e e' : Failure) : Prop :=
  e' = e ∨ ∃ symbol, ReachesSymbol r expression symbol ∧ r.linear? symbol = none ∧
    Expression.literal? symbol.points = none ∧
    e = .unit (.unresolved (leafFault r symbol) symbol expression) ∧
    e' = .unit (.unresolved (leafFault r' symbol) symbol expression)

/-- A leaf is refused under one class, whatever the reason. -/
theorem className_leafFault (r : Registry) (symbol expression : RawText) :
    (UnitError.unresolved (leafFault r symbol) symbol expression).className =
      "UnresolvableUnitError" := by
  rw [leafFault]
  split <;> rfl

/-- Failures that are the same but for the reason are of one class and about one part. -/
theorem SameButReason.same {e e' : Failure} (h : SameButReason r r' expression e e') :
    e'.className = e.className ∧ e'.details? = e.details? := by
  rcases h with rfl | ⟨symbol, -, -, -, rfl, rfl⟩
  · exact ⟨rfl, rfl⟩
  · exact ⟨(className_leafFault ..).trans (className_leafFault ..).symm, rfl⟩

/-- Registries with the same linear entries at the leaves that are reached give the same outcome,
but for the reason of a refused leaf. -/
theorem evaluate_outcome_of_agree
    (h : ∀ symbol, ReachesSymbol r expression symbol → r'.linear? symbol = r.linear? symbol) :
    AlikeBy (SameButReason r r' expression) (evaluate r expression) (evaluate r' expression) := by
  refine evaluate_alike (fun e ↦ Or.inl rfl) fun symbol hsymbol ↦ ?_
  rcases @operand_of_linear?_eq r r' expression symbol (h symbol hsymbol) with
    heq | ⟨hlinear, hread, hr, hr'⟩
  · exact .of_eq (fun e ↦ Or.inl rfl) heq.symm
  · rw [hr, hr']
    exact Or.inr ⟨symbol, hsymbol, hlinear, hread, rfl, rfl⟩

end Expression

namespace Workspace

open Expression

variable {w : Workspace} {number : Nat} {actions : List Action}

/-! ### Runs -/

/-- An action leaves a leaf that it does not write the operand that it was. -/
theorem operand_perform (w : Workspace) {action : Action} (hnumber : number < w.registries.length)
    {symbol : RawText} (hleaf : IsLeaf symbol.points) (hsymbol : symbol ∉ action.targets number)
    (expression : RawText) :
    operand ((w.perform action).2.registry number) expression symbol.points =
      operand (w.registry number) expression symbol.points := by
  rcases w.registry_perform action hnumber with hagrees | ⟨-, hgrows⟩
  · exact operand_congr (hagrees.linear_eq hsymbol) (hagrees.nonlinear_eq hsymbol)
  · exact (Registry.extends_of_grows hgrows.grows).operand_eq expression hleaf

theorem operand_run (hnumber : number < w.registries.length) {symbol : RawText}
    (hleaf : IsLeaf symbol.points) (hunwritten : Unwritten number symbol actions)
    (expression : RawText) :
    operand ((w.run actions).registry number) expression symbol.points =
      operand (w.registry number) expression symbol.points := by
  induction actions generalizing w with
  | nil => rfl
  | cons action actions ih =>
    obtain ⟨haction, hactions⟩ := List.forall_mem_cons.1 hunwritten
    rw [run_cons, ih (hnumber.trans_le (w.length_perform action)) hactions,
      w.operand_perform hnumber hleaf haction]

/-- A run that writes no leaf that an expression reaches leaves its outcome. -/
theorem evaluate_run (hnumber : number < w.registries.length) {expression : RawText}
    (hunwritten : ∀ symbol, ReachesSymbol (w.registry number) expression symbol →
      Unwritten number symbol actions) :
    evaluate ((w.run actions).registry number) expression =
      evaluate (w.registry number) expression := by
  refine (evaluate_alike (fun _ ↦ rfl) fun symbol hsymbol ↦ ?_).eq.symm
  exact .of_eq (fun _ ↦ rfl)
    (operand_run hnumber hsymbol.isLeaf (hunwritten symbol hsymbol) expression).symm

/-- **Evaluation is local.** The symbols that the evaluation of an expression reaches are pieces of
the expression without operators and groups.

Over every registry with the same multipliers for these the expression has the same value, or fails
in the same class at the same part; and then the failure is the same altogether, or that of one of
these symbols, which has no multiplier and is no literal, with the reason that depends on the
nonlinear units.

And in a workspace an expression has the outcome that it had, after any run in which nothing writes
these symbols to the registry, whatever else is written to it or memoized in it. -/
theorem evaluate_local (r : Registry) (expression : RawText) :
    (∀ symbol, ReachesSymbol r expression symbol →
      IsLeaf symbol.points ∧ symbol ≠ "" ∧ symbol.points <:+: expression.points) ∧
    (∀ r' : Registry,
      (∀ symbol, ReachesSymbol r expression symbol → r'.linear? symbol = r.linear? symbol) →
      (∀ multiplier, evaluate r' expression = .ok multiplier ↔
        evaluate r expression = .ok multiplier) ∧
      ∀ e e', evaluate r expression = .error e → evaluate r' expression = .error e' →
        e'.className = e.className ∧ e'.details? = e.details? ∧
        (e' = e ∨ ∃ symbol, ReachesSymbol r expression symbol ∧ r.linear? symbol = none ∧
          Expression.literal? symbol.points = none ∧
          e = .unit (.unresolved (leafFault r symbol) symbol expression) ∧
          e' = .unit (.unresolved (leafFault r' symbol) symbol expression))) ∧
    ∀ (w : Workspace) (number : Nat) (actions : List Action), number < w.registries.length →
      w.registry number = r →
      (∀ symbol, ReachesSymbol r expression symbol → Unwritten number symbol actions) →
      evaluate ((w.run actions).registry number) expression = evaluate r expression := by
  refine ⟨fun symbol hsymbol ↦ ⟨hsymbol.isLeaf, ?_, hsymbol.isInfix⟩, fun r' h ↦ ?_, ?_⟩
  · rintro rfl
    exact hsymbol.ne_nil rfl
  · have halike := evaluate_outcome_of_agree h
    refine ⟨fun multiplier ↦ ?_, fun e e' he he' ↦ ?_⟩
    · rcases hr : evaluate r expression with e | x <;>
        rcases hr' : evaluate r' expression with e' | x' <;> rw [hr, hr'] at halike
      · simp
      · exact halike.elim
      · exact halike.elim
      · rw [show x = x' from halike]
    · rw [he, he'] at halike
      obtain ⟨hclass, hdetails⟩ := SameButReason.same halike
      exact ⟨hclass, hdetails, halike⟩
  · rintro w number actions hnumber rfl hunwritten
    exact evaluate_run hnumber hunwritten

end Workspace

end Metrology
