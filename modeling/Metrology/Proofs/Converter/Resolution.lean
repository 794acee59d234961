import Metrology.Converter
import Metrology.Proofs.Registry.Growth

/-!
# How a converter resolves a unit

`Converter.Resolution` lists what resolving a unit can come to, with the converter that is left in
each case, and `Converter.resolution` says that the list is complete. What else there is to know of
resolving is read off the list:

* the answer is the multiplier of the unit, if expressions are parsed (`resolve_fst`);
* the registry stays as it is or memoizes the unit (`registry_resolve`).

Single conversions take over both: `convertBy_fst` reduces the answer to a function of the registry,
`Registry.answerBy`, and `registry_convertBy` the registry to the same two cases.
-/

namespace Metrology

open Expression

/-! ### Nothing is called nothing -/

/-- The empty expression has no value. -/
theorem Expression.evaluate_empty (r : Registry) :
    evaluate r "" = .error (.unit (.unresolved .emptyPart "" "")) := rfl

namespace Converter

/-! ### What resolving can come to -/

/-- The converter after memoizing a unit. -/
def memoized (c : Converter) (unit : RawText) (multiplier : Scalar) (registry : Registry) :
    Converter :=
  ({ c with registry }).countMemoized.remark
    ("Memoized compound unit '" ++ unit ++ "' = " ++ multiplier.text)

/-- The outcomes of resolving a unit, each with its conditions. -/
inductive Resolution (c : Converter) (p : Preferences) :
    Option RawText → Except Failure Scalar × Converter → Prop where
  | registered {unit : RawText} {multiplier : Scalar}
      (hlinear : c.registry.linear? unit = some multiplier) :
      Resolution c p (some unit) (.ok multiplier, c.countHit)
  | unknown {unit : Option RawText} (hlinear : unit.bind c.registry.linear? = none)
      (hparse : p.parseCompound = false) :
      Resolution c p unit (.error (.unit (.unknown unit)), c)
  | failed {unit : Option RawText} {e : Failure} (hlinear : unit.bind c.registry.linear? = none)
      (hparse : p.parseCompound = true) (hvalue : evaluate c.registry (unit.getD "") = .error e) :
      Resolution c p unit (.error e, c)
  | parsed {unit : RawText} {multiplier : Scalar} (hlinear : c.registry.linear? unit = none)
      (hparse : p.parseCompound = true) (hvalue : evaluate c.registry unit = .ok multiplier)
      (hmemoize : p.memoize = false) :
      Resolution c p (some unit) (.ok multiplier, c.countParsed)
  | memoized {unit : RawText} {multiplier : Scalar} {registry : Registry}
      (hlinear : c.registry.linear? unit = none) (hparse : p.parseCompound = true)
      (hvalue : evaluate c.registry unit = .ok multiplier) (hmemoize : p.memoize = true)
      (hinsert : c.registry.insertScalar unit multiplier = .ok registry) :
      Resolution c p (some unit)
        (.ok multiplier, c.countParsed.memoized unit multiplier registry)
  | refused {unit : RawText} {multiplier : Scalar} {e : Failure}
      (hlinear : c.registry.linear? unit = none) (hparse : p.parseCompound = true)
      (hvalue : evaluate c.registry unit = .ok multiplier) (hmemoize : p.memoize = true)
      (hinsert : c.registry.insertScalar unit multiplier = .error e) :
      Resolution c p (some unit) (.error e, c.countParsed)

theorem resolution (c : Converter) (p : Preferences) (unit : Option RawText) :
    Resolution c p unit (c.resolve p unit) := by
  rw [resolve]
  split
  · next multiplier hlinear =>
    obtain ⟨unit, rfl, hlinear⟩ := Option.bind_eq_some_iff.1 hlinear
    exact .registered hlinear
  · next hlinear =>
    rcases hparse : p.parseCompound with _ | _
    · exact .unknown hlinear hparse
    · rw [if_neg (by simp)]
      split
      · next e hvalue => exact .failed hlinear hparse hvalue
      · next multiplier hvalue =>
        -- without a unit there is no value, so from here on there is one
        rcases unit with _ | unit
        · exact absurd ((evaluate_empty c.registry).symm.trans hvalue) (by simp)
        · rcases hmemoize : p.memoize with _ | _
          · exact .parsed hlinear hparse hvalue hmemoize
          · rw [if_pos rfl, memoize]
            split
            · next e hinsert => exact .refused hlinear hparse hvalue hmemoize hinsert
            · next registry hinsert => exact .memoized hlinear hparse hvalue hmemoize hinsert

variable {c : Converter} {p : Preferences} {unit : Option RawText}

/-- The multiplier of a unit that is not nonlinear, if expressions are parsed. -/
theorem resolve_fst (hvalid : c.registry.Valid) (hparse : p.parseCompound = true)
    (hnonlinear : unit.bind c.registry.nonlinear? = none) :
    (c.resolve p unit).1 = c.registry.multiplierOf unit := by
  rcases h : c.resolve p unit with ⟨answer, after⟩
  have hresolution := h ▸ resolution c p unit
  cases hresolution with
  | registered hlinear => rw [Registry.multiplierOf_some_of_linear? hlinear]
  | unknown hlinear hoff => exact absurd (hparse.symm.trans hoff) (by simp)
  | failed hlinear _ hvalue => rw [Registry.multiplierOf, hlinear, hvalue]
  | parsed hlinear _ hvalue _ | memoized hlinear _ hvalue _ _ =>
    rw [Registry.multiplierOf_some_of_linear?_eq_none hlinear, hvalue]
  | refused hlinear _ hvalue _ hinsert =>
    -- over a valid registry every value can be memoized
    obtain ⟨registry, hok⟩ := hvalid.exists_insertScalar hvalue hnonlinear
    exact absurd (hinsert.symm.trans hok) (by simp)

/-- Resolving writes nothing but the unit, and that only if it memoizes. -/
theorem registry_resolve (c : Converter) (p : Preferences) (unit : Option RawText) :
    (c.resolve p unit).2.registry = c.registry ∨
      ∃ symbol, unit = some symbol ∧ p.memoize = true ∧
        c.registry.Memoizes symbol (c.resolve p unit).2.registry := by
  rcases h : c.resolve p unit with ⟨answer, after⟩
  have hresolution := h ▸ resolution c p unit
  cases hresolution with
  | memoized hlinear _ hvalue hmemoize hinsert =>
    exact Or.inr ⟨_, rfl, hmemoize, hlinear, _, hvalue, hinsert⟩
  | registered | unknown | failed | parsed | refused => exact Or.inl rfl

theorem preferences_resolve (c : Converter) (p : Preferences) (unit : Option RawText) :
    (c.resolve p unit).2.preferences = c.preferences := by
  rcases h : c.resolve p unit with ⟨answer, after⟩
  have hresolution := h ▸ resolution c p unit
  cases hresolution <;> rfl

end Converter

/-! ### Single conversions -/

namespace Registry

/-- What is answered when a value is converted by a multiplier, or when there is none. -/
def answerWith (direction : Direction) (loud : Bool) (value : Value) :
    Except Failure Scalar → Except Failure Value
  | .ok multiplier => ((direction.step multiplier).run value).mapError Failure.number
  | .error (.unit cause) => if loud then .error (.unit cause) else .ok value.nanLike
  | .error e => .error e

/-- What is answered when a value is converted by a unit and expressions are parsed. -/
def answerBy (r : Registry) (direction : Direction) (loud : Bool) (value : Value)
    (unit : Option RawText) : Except Failure Value :=
  match unit with
  | none | some ⟨[]⟩ => .ok value
  | some unit =>
    match r.nonlinear? unit with
    | some nonlinear => ((direction.map nonlinear).run value).mapError Failure.number
    | none => answerWith direction loud value (r.multiplierOf (some unit))

theorem answerBy_nonlinear {r : Registry} {direction : Direction} {loud : Bool} {value : Value}
    {symbol : RawText} {nonlinear : NonlinearUnit} (hsymbol : symbol ≠ "")
    (hnonlinear : r.nonlinear? symbol = some nonlinear) :
    r.answerBy direction loud value (some symbol) =
      ((direction.map nonlinear).run value).mapError Failure.number := by
  obtain ⟨_ | ⟨point, points⟩⟩ := symbol
  · exact absurd rfl hsymbol
  · rw [answerBy.eq_def]
    simp only [hnonlinear]

theorem answerBy_linear {r : Registry} {direction : Direction} {loud : Bool} {value : Value}
    {symbol : RawText} (hsymbol : symbol ≠ "") (hnonlinear : r.nonlinear? symbol = none) :
    r.answerBy direction loud value (some symbol) =
      answerWith direction loud value (r.multiplierOf (some symbol)) := by
  obtain ⟨_ | ⟨point, points⟩⟩ := symbol
  · exact absurd rfl hsymbol
  · rw [answerBy.eq_def]
    simp only [hnonlinear]

end Registry

namespace Converter

variable {c : Converter} {direction : Direction} {request : Request} {value : Value}
  {unit : Option RawText}

/-- Ends a conversion once its unit is resolved. -/
def settle (direction : Direction) (loud : Bool) (symbol : RawText) (value : Value) :
    Except Failure Scalar × Converter → Except Failure Value × Converter
  | (.ok multiplier, c) => c.finish ((direction.step multiplier).run value)
  | (.error (.unit cause), c) => c.refuse loud symbol cause value
  | (.error e, c) => (.error e, c)

theorem finish_fst (c : Converter) (result : Except NumberError Value) :
    (c.finish result).1 = result.mapError Failure.number := by
  cases result <;> rfl

/-- Finishing only counts. -/
theorem finish_snd (c : Converter) (result : Except NumberError Value) :
    (c.finish result).2.registry = c.registry ∧
      (c.finish result).2.preferences = c.preferences := by
  cases result <;> exact ⟨rfl, rfl⟩

theorem settle_fst (direction : Direction) (loud : Bool) (symbol : RawText) (value : Value)
    (outcome : Except Failure Scalar × Converter) :
    (settle direction loud symbol value outcome).1 =
      Registry.answerWith direction loud value outcome.1 := by
  rcases outcome with ⟨e | multiplier, c⟩
  · cases e with
    | unit cause => cases loud <;> rfl
    | _ => rfl
  · exact finish_fst c _

/-- Settling only counts and remarks. -/
theorem settle_snd (direction : Direction) (loud : Bool) (symbol : RawText) (value : Value)
    (outcome : Except Failure Scalar × Converter) :
    (settle direction loud symbol value outcome).2.registry = outcome.2.registry ∧
      (settle direction loud symbol value outcome).2.preferences = outcome.2.preferences := by
  rcases outcome with ⟨e | multiplier, c⟩
  · cases e with
    | unit cause => cases loud <;> exact ⟨rfl, rfl⟩
    | _ => exact ⟨rfl, rfl⟩
  · exact finish_snd c _

/-- The ways a single conversion can go, each with its conditions. -/
inductive Conversion (c : Converter) (direction : Direction) (request : Request) (value : Value) :
    Option RawText → Except Failure Value × Converter → Prop where
  /-- There is no unit to convert by. -/
  | idle {unit : Option RawText} (hunit : unit = none ∨ unit = some "") :
      Conversion c direction request value unit (.ok value, c)
  | nonlinear {symbol : RawText} {nonlinear : NonlinearUnit} (hsymbol : symbol ≠ "")
      (hnonlinear : c.registry.nonlinear? symbol = some nonlinear) :
      Conversion c direction request value (some symbol)
        (c.countHit.finish ((direction.map nonlinear).run value))
  | linear {symbol : RawText} (hsymbol : symbol ≠ "")
      (hnonlinear : c.registry.nonlinear? symbol = none) :
      Conversion c direction request value (some symbol)
        (settle direction (c.preferences.override request).failLoud symbol value
          (c.resolve (c.preferences.override request) (some symbol)))

/-- The match that ends a conversion is `settle`. -/
theorem convertBy_linear {symbol : RawText} (hsymbol : symbol ≠ "")
    (hnonlinear : c.registry.nonlinear? symbol = none) :
    c.convertBy direction request value (some symbol) =
      settle direction (c.preferences.override request).failLoud symbol value
        (c.resolve (c.preferences.override request) (some symbol)) := by
  obtain ⟨_ | ⟨point, points⟩⟩ := symbol
  · exact absurd rfl hsymbol
  · rw [convertBy.eq_def]
    simp only [hnonlinear]
    rcases c.resolve (c.preferences.override request) _ with ⟨e | multiplier, after⟩
    · cases e <;> rfl
    · rfl

theorem convertBy_nonlinear {symbol : RawText} {nonlinear : NonlinearUnit} (hsymbol : symbol ≠ "")
    (hnonlinear : c.registry.nonlinear? symbol = some nonlinear) :
    c.convertBy direction request value (some symbol) =
      c.countHit.finish ((direction.map nonlinear).run value) := by
  obtain ⟨_ | ⟨point, points⟩⟩ := symbol
  · exact absurd rfl hsymbol
  · rw [convertBy.eq_def]
    simp only [hnonlinear]

theorem conversion (c : Converter) (direction : Direction) (request : Request) (value : Value)
    (unit : Option RawText) :
    Conversion c direction request value unit (c.convertBy direction request value unit) := by
  rcases unit with _ | symbol
  · exact .idle (Or.inl rfl)
  · by_cases hsymbol : symbol = ""
    · exact hsymbol ▸ .idle (Or.inr rfl)
    · rcases hnonlinear : c.registry.nonlinear? symbol with _ | nonlinear
      · rw [convertBy_linear hsymbol hnonlinear]
        exact .linear hsymbol hnonlinear
      · rw [convertBy_nonlinear hsymbol hnonlinear]
        exact .nonlinear hsymbol hnonlinear

/-- A single conversion answers what the registry makes of the unit. -/
theorem convertBy_fst (hvalid : c.registry.Valid)
    (hparse : (c.preferences.override request).parseCompound = true) :
    (c.convertBy direction request value unit).1 =
      c.registry.answerBy direction (c.preferences.override request).failLoud value unit := by
  have hconversion := conversion c direction request value unit
  generalize c.convertBy direction request value unit = result at hconversion ⊢
  cases hconversion with
  | idle hunit => rcases hunit with rfl | rfl <;> rfl
  | nonlinear hsymbol hnonlinear =>
    rw [Registry.answerBy_nonlinear hsymbol hnonlinear, finish_fst]
  | @linear symbol hsymbol hnonlinear =>
    have hnone : (some symbol).bind c.registry.nonlinear? = none := hnonlinear
    rw [Registry.answerBy_linear hsymbol hnonlinear, settle_fst, resolve_fst hvalid hparse hnone]

/-- A single conversion writes nothing but the unit, and that only if it memoizes. -/
theorem registry_convertBy (c : Converter) (direction : Direction) (request : Request)
    (value : Value) (unit : Option RawText) :
    (c.convertBy direction request value unit).2.registry = c.registry ∨
      ∃ symbol, unit = some symbol ∧ (c.preferences.override request).memoize = true ∧
        c.registry.Memoizes symbol (c.convertBy direction request value unit).2.registry := by
  have hconversion := conversion c direction request value unit
  generalize c.convertBy direction request value unit = result at hconversion ⊢
  cases hconversion with
  | idle _ => exact Or.inl rfl
  | nonlinear _ _ => exact Or.inl (finish_snd _ _).1
  | linear _ _ =>
    rw [(settle_snd _ _ _ _ _).1]
    exact registry_resolve c _ _

theorem preferences_convertBy (c : Converter) (direction : Direction) (request : Request)
    (value : Value) (unit : Option RawText) :
    (c.convertBy direction request value unit).2.preferences = c.preferences := by
  have hconversion := conversion c direction request value unit
  generalize c.convertBy direction request value unit = result at hconversion ⊢
  cases hconversion with
  | idle _ => rfl
  | nonlinear _ _ => exact (finish_snd _ _).2
  | linear _ _ =>
    rw [(settle_snd _ _ _ _ _).2]
    exact preferences_resolve c _ _

/-! ### Conversions between two units -/

/-- The ways both single conversions can go: the first one fails, or the second one follows it. -/
inductive Relay (c : Converter) (value : Value) (source target : Option RawText) :
    Except Failure Value × Converter → Prop where
  | stopped {e : Failure} {after : Converter}
      (hfirst : c.convertBy .toInternal { failLoud := some true } value source =
        (.error e, after)) :
      Relay c value source target (.error e, after)
  | passed {internal : Value} {after : Converter}
      (hfirst : c.convertBy .toInternal { failLoud := some true } value source =
        (.ok internal, after)) :
      Relay c value source target
        (after.convertBy .fromInternal { failLoud := some true } internal target)

theorem relay (c : Converter) (value : Value) (source target : Option RawText) :
    Relay c value source target (c.convertLoudly value source target) := by
  rw [convertLoudly, toInternal]
  rcases hfirst : c.convertBy .toInternal { failLoud := some true } value source with
    ⟨e | internal, after⟩
  · exact .stopped hfirst
  · exact .passed hfirst

/-- The ways a conversion between two units can go, each with its conditions. -/
inductive Exchange (c : Converter) (failLoud : Option Bool) (value : Value)
    (source target : Option RawText) : Except Failure Value × Converter → Prop where
  /-- Nothing is to be converted. -/
  | same (heq : source = target) : Exchange c failLoud value source target (.ok value, c)
  /-- No unit fails to be resolved. -/
  | settled {outcome : Except Failure Value × Converter} (hne : source ≠ target)
      (hloudly : c.convertLoudly value source target = outcome)
      (hunit : ∀ cause, outcome.1 ≠ .error (.unit cause)) :
      Exchange c failLoud value source target outcome
  | refused {cause : UnitError} {after : Converter} (hne : source ≠ target)
      (hloudly : c.convertLoudly value source target = (.error (.unit cause), after)) :
      Exchange c failLoud value source target
        (if failLoud.getD c.preferences.failLoud then
          .error (.unit (.between source target cause)) else .ok value.nanLike, after)

theorem exchange (c : Converter) (failLoud : Option Bool) (value : Value)
    (source target : Option RawText) :
    Exchange c failLoud value source target (c.convert failLoud value source target) := by
  rw [convert]
  split
  · next heq => exact .same heq
  · next hne =>
    rcases hloudly : c.convertLoudly value source target with ⟨e | result, after⟩
    · cases e with
      | unit cause =>
        have hrefused : Exchange c failLoud value source target _ := .refused hne hloudly
        rcases hloud : failLoud.getD c.preferences.failLoud with _ | _ <;>
          rw [hloud] at hrefused <;> exact hrefused
      | _ => exact .settled hne hloudly (by simp)
    · exact .settled hne hloudly (by simp)

end Converter

end Metrology
