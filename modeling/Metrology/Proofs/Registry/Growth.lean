import Mathlib.Logic.Relation
import Metrology.Proofs.Expression.Value

/-!
# Registries that grow by memoizing

Converters write to a registry in one way: they insert the value of an expression, as a double,
under the text of the expression, when that text has no multiplier yet. `Registry.Memoizes` is one
such write and `Registry.Grows` any number of them.

The memoized entries stand in the map that leaves are looked up in. That they change no evaluation
(`Extends.evaluate_eq`) rests on what their texts are:

* a text that an operator splits, or that is one group, is no leaf, so evaluation never looks it up;
* a text that is a leaf has a value only if it is a literal, and then its entry is the double that
  the literal stands for anyway.

Whether a memoized multiplier is the one that evaluation gives is another matter: it is the double
of that one (`multiplierOf_of_extends`), the same for a double, a rounded one for a whole number.
-/

namespace Metrology.Registry

open Expression

/-- A unit without a multiplier gets the value of its expression. -/
def Memoizes (unit : RawText) (r r' : Registry) : Prop :=
  r.linear? unit = none ∧
    ∃ multiplier, evaluate r unit = .ok multiplier ∧ r.insertScalar unit multiplier = .ok r'

/-- Units are memoized one after the other. -/
def Grows : Registry → Registry → Prop :=
  Relation.ReflTransGen fun r r' ↦ ∃ unit, Memoizes unit r r'

/-- Units are memoized one after the other, all of them among some. -/
def GrowsBy (units : List (Option RawText)) : Registry → Registry → Prop :=
  Relation.ReflTransGen fun r r' ↦ ∃ unit, some unit ∈ units ∧ Memoizes unit r r'

/-- A registry has all the entries of another one, and besides only memoized ones. -/
structure Extends (r r' : Registry) : Prop where
  nonlinear_eq : r'.nonlinear = r.nonlinear
  kept : ∀ {symbol : RawText} {multiplier : Scalar},
    r.linear? symbol = some multiplier → r'.linear? symbol = some multiplier
  /-- What is new is the double of a value. -/
  memoized : ∀ {symbol : RawText} {multiplier : Scalar},
    r.linear? symbol = none → r'.linear? symbol = some multiplier →
      ∃ (value : Scalar) (x : Double),
        evaluate r symbol = .ok value ∧ value.toDouble = .ok x ∧ multiplier = .double x

variable {r r' r'' : Registry}

theorem extends_refl (r : Registry) : Extends r r :=
  ⟨rfl, id, fun hnone hsome ↦ absurd (hnone.symm.trans hsome) (by simp)⟩

/-! ### Memoizing changes no evaluation -/

/-- A leaf has the same value with the memoized entries as without them. -/
theorem Extends.operand_eq (h : Extends r r') (expression : RawText) {text : List CodePoint}
    (hleaf : IsLeaf text) : operand r' expression text = operand r expression text := by
  rw [operand, operand]
  congr 2
  rcases hr : r.linear? ⟨text⟩ with _ | multiplier
  · rcases hr' : r'.linear? ⟨text⟩ with _ | multiplier
    · simp only [leaf, hr, hr', h.nonlinear_eq]
    · -- the entry is new, so it is the value of a leaf that is not registered: of a literal
      obtain ⟨value, x, hvalue, hx, rfl⟩ := h.memoized hr hr'
      have hoperand := operand_of_evaluate_eq_ok hleaf hvalue
      rcases leaf_eq_ok (leaf_of_operand_eq_ok hoperand) with
        hlinear | ⟨-, literal, hread, hfinite, rfl⟩
      · rw [hr] at hlinear
        exact absurd hlinear (by simp)
      · obtain rfl : literal.toDouble = x := Except.ok.inj hx
        simp [leaf, hr, hr', hread, hfinite]
  · have hr' := h.kept hr
    simp only [leaf, hr, hr']

/-- An expression evaluates as it does without the memoized entries. -/
theorem Extends.evaluate_eq (h : Extends r r') (expression : RawText) :
    evaluate r' expression = evaluate r expression :=
  evaluate_congr fun _ hleaf ↦ h.operand_eq expression hleaf

/-- What memoizing does to the registry. -/
theorem Memoizes.exists_insert {unit : RawText} (h : Memoizes unit r r') :
    ∃ (value : Scalar) (x : Double), evaluate r unit = .ok value ∧ value.toDouble = .ok x ∧
      r.linear? unit = none ∧ r.nonlinear? unit = none ∧
      r' = { r with linear := r.linear.insert unit (.double x) } := by
  obtain ⟨hnone, value, hvalue, hinsert⟩ := h
  obtain ⟨x, hx, -, hnonlinear, rfl⟩ := insertScalar_eq_ok_iff.1 hinsert
  exact ⟨value, x, hvalue, hx, hnone, hnonlinear, rfl⟩

theorem Extends.memoizes {unit : RawText} (h : Extends r r') (hstep : Memoizes unit r' r'') :
    Extends r r'' := by
  obtain ⟨value, x, hvalue, hx, hnone, -, rfl⟩ := hstep.exists_insert
  refine ⟨h.nonlinear_eq, fun {symbol multiplier} hsome ↦ ?_,
    fun {symbol multiplier} hfree hnew ↦ ?_⟩
  · have hkept := h.kept hsome
    have hne : symbol ≠ unit := by
      rintro rfl
      exact absurd (hnone.symm.trans hkept) (by simp)
    rw [linear?, SymbolMap.get?_insert, if_neg hne]
    exact hkept
  · -- a new entry is the one memoized last, or has been new before
    rw [linear?, SymbolMap.get?_insert] at hnew
    split at hnew
    · next heq =>
      subst heq
      exact ⟨value, x, h.evaluate_eq symbol ▸ hvalue, hx, (Option.some_inj.1 hnew).symm⟩
    · exact h.memoized hfree hnew

theorem Extends.grows (h : Extends r r') (hgrows : Grows r' r'') : Extends r r'' := by
  induction hgrows with
  | refl => exact h
  | tail _ hstep ih =>
    obtain ⟨unit, hunit⟩ := hstep
    exact ih.memoizes hunit

/-- What has grown by memoizing extends what it was. -/
theorem extends_of_grows (h : Grows r r') : Extends r r' := (extends_refl r).grows h

theorem Valid.grows (h : r.Valid) (hgrows : Grows r r') : r'.Valid := by
  induction hgrows with
  | refl => exact h
  | tail _ hstep ih =>
    obtain ⟨unit, -, multiplier, -, hinsert⟩ := hstep
    exact ih.insertScalar hinsert

theorem Memoizes.growsBy {unit : RawText} {units : List (Option RawText)} (h : Memoizes unit r r')
    (hunit : some unit ∈ units) : GrowsBy units r r' :=
  Relation.ReflTransGen.single ⟨unit, hunit, h⟩

theorem GrowsBy.grows {units : List (Option RawText)} (h : GrowsBy units r r') : Grows r r' :=
  Relation.ReflTransGen.mono (fun _ _ ⟨unit, _, hstep⟩ ↦ ⟨unit, hstep⟩) _ _ h

theorem GrowsBy.mono {units units' : List (Option RawText)} (h : GrowsBy units r r')
    (hsubset : units ⊆ units') : GrowsBy units' r r' :=
  Relation.ReflTransGen.mono
    (fun _ _ ⟨unit, hunit, hstep⟩ ↦ ⟨unit, hsubset hunit, hstep⟩) _ _ h

/-- What is new in a registry is one of the units that were memoized. -/
theorem GrowsBy.linear?_eq {units : List (Option RawText)} (h : GrowsBy units r r')
    {symbol : RawText} (hsymbol : some symbol ∉ units) : r'.linear? symbol = r.linear? symbol := by
  induction h with
  | refl => rfl
  | tail _ hstep ih =>
    obtain ⟨unit, hunit, hmemoizes⟩ := hstep
    obtain ⟨-, x, -, -, -, -, rfl⟩ := hmemoizes.exists_insert
    have hne : symbol ≠ unit := fun heq ↦ hsymbol (heq ▸ hunit)
    rw [← ih, linear?, SymbolMap.get?_insert, if_neg hne, linear?]

/-! ### The multiplier of a unit -/

/-- The multiplier of a unit, registered or else evaluated. A unit that is not given is the empty
expression. -/
def multiplierOf (r : Registry) (unit : Option RawText) : Except Failure Scalar :=
  match unit.bind r.linear? with
  | some multiplier => .ok multiplier
  | none => evaluate r (unit.getD "")

theorem multiplierOf_some_of_linear? {unit : RawText} {multiplier : Scalar}
    (h : r.linear? unit = some multiplier) : r.multiplierOf (some unit) = .ok multiplier := by
  simp [multiplierOf, h]

theorem multiplierOf_some_of_linear?_eq_none {unit : RawText} (h : r.linear? unit = none) :
    r.multiplierOf (some unit) = evaluate r unit := by
  simp [multiplierOf, h]

/-- The multiplier of a unit is the one without memoized entries, or its double. -/
theorem multiplierOf_of_extends (h : Extends r r') (unit : Option RawText) :
    r'.multiplierOf unit = r.multiplierOf unit ∨
      ∃ (multiplier : Scalar) (x : Double), r.multiplierOf unit = .ok multiplier ∧
        multiplier.toDouble = .ok x ∧ r'.multiplierOf unit = .ok (.double x) := by
  cases unit with
  | none => exact Or.inl (h.evaluate_eq "")
  | some unit =>
    rcases hr : r.linear? unit with _ | multiplier
    · rcases hr' : r'.linear? unit with _ | multiplier
      · rw [multiplierOf_some_of_linear?_eq_none hr, multiplierOf_some_of_linear?_eq_none hr']
        exact Or.inl (h.evaluate_eq unit)
      · obtain ⟨value, x, hvalue, hx, rfl⟩ := h.memoized hr hr'
        rw [multiplierOf_some_of_linear?_eq_none hr, multiplierOf_some_of_linear? hr']
        exact Or.inr ⟨value, x, hvalue, hx, rfl⟩
    · rw [multiplierOf_some_of_linear? hr, multiplierOf_some_of_linear? (h.kept hr)]
      exact Or.inl rfl

/-- Memoizing one unit leaves the multipliers of all others. -/
theorem Memoizes.multiplierOf_eq {unit : RawText} {other : Option RawText} (h : Memoizes unit r r')
    (hne : other ≠ some unit) : r'.multiplierOf other = r.multiplierOf other := by
  have hextends := (extends_refl r).memoizes h
  obtain ⟨value, x, -, -, -, -, rfl⟩ := h.exists_insert
  cases other with
  | none => exact hextends.evaluate_eq ""
  | some other =>
    have hother : other ≠ unit := fun heq ↦ hne (heq ▸ rfl)
    simp only [multiplierOf, Option.bind_some, linear?, SymbolMap.get?_insert, if_neg hother,
      Option.getD_some, hextends.evaluate_eq other]

/-- Over a valid registry the value of an expression can be memoized, unless its text is that of a
nonlinear unit. -/
theorem Valid.exists_insertScalar (h : r.Valid) {unit : RawText} {multiplier : Scalar}
    (hvalue : evaluate r unit = .ok multiplier) (hnonlinear : r.nonlinear? unit = none) :
    ∃ r', r.insertScalar unit multiplier = .ok r' := by
  obtain ⟨x, hx, hfinite⟩ :=
    Scalar.exists_toDouble_of_isUsable (isUsable_of_evaluate_eq_ok h hvalue)
  exact ⟨_, insertScalar_eq_ok_iff.2 ⟨x, hx, hfinite, hnonlinear, rfl⟩⟩

end Metrology.Registry
