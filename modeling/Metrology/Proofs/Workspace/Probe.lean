import Metrology.Proofs.Converter.Acceptance

/-!
# Asking before converting

A converter tells whether it accepts a unit by converting the number one, quietly. The answer says
whether any double could be converted by that unit, loudly, and having asked makes no difference to
that conversion (`Workspace.accepts_iff_converts`).

What a unit does to a value is a map: no step for a unit that is not given, the map of a nonlinear
unit, or one multiplication (`Registry.mapOf`). Whether the conversion is loud or quiet matters only
where there is none to be had (`Registry.answerThrough`). One goes through a multiplication by a
finite number that is not zero and stays a number, so not-a-number tells that there was no map. The
map of a nonlinear unit has to be of that kind itself (`TakesDoubles`); those of the built-in ones
are (`isStepwise_builtIn`).
-/

namespace Metrology

/-! ### The map of a unit -/

namespace Registry

variable {r : Registry} {parse : Bool} {unit : Option RawText} {map : ValueMap}

/-- The map by which a unit converts to internal units, or why there is none. -/
def mapOf (r : Registry) (parse : Bool) (unit : Option RawText) : Except Failure ValueMap :=
  match unit with
  | none | some ⟨[]⟩ => .ok (.ofSteps [])
  | some unit =>
    match r.nonlinear? unit with
    | some nonlinear => .ok nonlinear.toInternal
    | none => (r.resolved parse unit).map fun multiplier ↦ .ofSteps [.times multiplier]

/-- What is answered for a value that is to go through a map, if there is one. -/
def answerThrough (loud : Bool) (value : Value) : Except Failure ValueMap → Except Failure Value
  | .ok map => (map.run value).mapError Failure.number
  | .error (.unit cause) => if loud then .error (.unit cause) else .ok value.nanLike
  | .error e => .error e

theorem mapOf_nonlinear {symbol : RawText} {nonlinear : NonlinearUnit} (hsymbol : symbol ≠ "")
    (hnonlinear : r.nonlinear? symbol = some nonlinear) :
    r.mapOf parse (some symbol) = .ok nonlinear.toInternal := by
  obtain ⟨_ | ⟨point, points⟩⟩ := symbol
  · exact absurd rfl hsymbol
  · rw [mapOf.eq_def]
    simp only [hnonlinear]

theorem mapOf_linear {symbol : RawText} (hsymbol : symbol ≠ "")
    (hnonlinear : r.nonlinear? symbol = none) :
    r.mapOf parse (some symbol) =
      (r.resolved parse symbol).map fun multiplier ↦ .ofSteps [.times multiplier] := by
  obtain ⟨_ | ⟨point, points⟩⟩ := symbol
  · exact absurd rfl hsymbol
  · rw [mapOf.eq_def]
    simp only [hnonlinear]

/-- To be converted by a multiplier is to go through one step. -/
theorem answerWith_toInternal (loud : Bool) (value : Value) (found : Except Failure Scalar) :
    answerWith .toInternal loud value found =
      answerThrough loud value (found.map fun multiplier ↦ .ofSteps [.times multiplier]) := by
  rcases found with e | multiplier
  · cases e <;> rfl
  · exact congrArg (Except.mapError Failure.number) (runSteps_singleton _ value).symm

/-- The map of a unit takes doubles if that of the nonlinear unit of that name does. -/
theorem takesDoubles_of_mapOf (hvalid : r.Valid)
    (htakes : ∀ nonlinear, unit.bind r.nonlinear? = some nonlinear →
      TakesDoubles nonlinear.toInternal)
    (h : r.mapOf parse unit = .ok map) : TakesDoubles map := by
  rw [mapOf.eq_def] at h
  split at h
  · exact Except.ok.inj h ▸ takesDoubles_ofSteps (by simp)
  · exact Except.ok.inj h ▸ takesDoubles_ofSteps (by simp)
  · next symbol _ =>
    split at h
    · next nonlinear hnonlinear => exact Except.ok.inj h ▸ htakes nonlinear hnonlinear
    · obtain ⟨multiplier, hresolved, rfl⟩ := exists_of_map_eq_ok h
      exact takesDoubles_ofSteps <| List.forall_mem_singleton.2 <|
        isUsable_of_resolved_eq_ok hvalid hresolved

/-- One is converted, quietly, and stays a number exactly if any double is converted loudly. -/
theorem answerThrough_iff {found : Except Failure ValueMap}
    (h : ∀ map, found = .ok map → TakesDoubles map) (x : Double) :
    (∃ value, answerThrough false (.ofDouble 1) found = .ok value ∧
        Converter.isNaN value = false) ↔
      ∃ value, answerThrough true (.ofDouble x) found = .ok value := by
  rcases found with e | map
  · refine iff_of_false ?_ ?_
    · rintro ⟨value, hvalue, hnumber⟩
      cases e with
      | unit cause =>
        obtain rfl := Except.ok.inj hvalue
        exact absurd hnumber (by decide)
      | _ => exact absurd hvalue (by simp [answerThrough])
    · rintro ⟨value, hvalue⟩
      cases e <;> simp [answerThrough] at hvalue
  · have htakes := h map rfl
    obtain ⟨result, hresult⟩ := htakes.total x
    obtain ⟨one, hone⟩ := htakes.total 1
    refine iff_of_true ⟨one, ?_, htakes.not_isNaN hone⟩ ⟨result, ?_⟩
    · rw [answerThrough, hone]
      rfl
    · rw [answerThrough, hresult]
      rfl

end Registry

open Registry

/-- A conversion to internal units answers what its unit's map makes of the value. -/
theorem Converter.convertBy_toInternal (c : Converter) (hvalid : c.registry.Valid)
    (request : Request) (value : Value) (unit : Option RawText) :
    (c.convertBy .toInternal request value unit).1 =
      answerThrough (c.preferences.override request).failLoud value
        (c.registry.mapOf (c.preferences.override request).parseCompound unit) := by
  have hconversion := c.conversion .toInternal request value unit
  generalize c.convertBy .toInternal request value unit = result at hconversion ⊢
  cases hconversion with
  | idle hunit => rcases hunit with rfl | rfl <;> rfl
  | nonlinear hsymbol hnonlinear =>
    rw [mapOf_nonlinear hsymbol hnonlinear, finish_fst]
    rfl
  | linear hsymbol hnonlinear =>
    rw [mapOf_linear hsymbol hnonlinear, settle_fst, resolve_eq_resolved hvalid _ hnonlinear,
      answerWith_toInternal]

namespace Workspace

variable {w w' : Workspace} {number : Nat} {parse memoize : Option Bool} {unit : Option RawText}

/-- Expressions are parsed by a converter when it is asked with a flag, or without one. -/
def parsesBy (w : Workspace) (number : Nat) (parse : Option Bool) : Bool :=
  parse.getD (w.station number).preferences.parseCompound

/-- The map by which a converter converts a unit to internal units. -/
def mapBy (w : Workspace) (number : Nat) (parse : Option Bool) (unit : Option RawText) :
    Except Failure ValueMap :=
  (w.registry (w.station number).registry).mapOf (w.parsesBy number parse) unit

/-- A converter accepts a unit if one goes through the map of the unit and stays a number. -/
theorem answer_accepts_eq_true_iff (hw : w.Valid) :
    w.answer number (.accepts parse unit) = .ok (.verdict true) ↔
      ∃ value, answerThrough false (.ofDouble 1) (w.mapBy number parse unit) = .ok value ∧
        Converter.isNaN value = false := by
  have hconvert := (w.converter number).convertBy_toInternal (hw (w.station number).registry)
    { parseCompound := parse, failLoud := some false } (.ofDouble 1) unit
  have hanswer : w.answer number (.accepts parse unit) =
      ((answerThrough false (.ofDouble 1) (w.mapBy number parse unit)).map
        (!Converter.isNaN ·)).map .verdict := by
    show Except.map _ ((w.converter number).accepts parse unit).1 = _
    rw [Converter.accepts_eq, Prod.map_fst, hconvert]
    rfl
  rw [hanswer]
  rcases answerThrough false (.ofDouble 1) (w.mapBy number parse unit) with e | value
  · simp [Except.map]
  · simp [Except.map]

theorem answer_toInternal (hw : w.Valid) (value : Value) :
    w.answer number
        (.single .toInternal { parseCompound := parse, memoize, failLoud := some true } value
          unit) =
      (answerThrough true value (w.mapBy number parse unit)).map .value :=
  congrArg (Except.map Answer.value) ((w.converter number).convertBy_toInternal (hw _) _ value unit)

/-- After calls that parse alike a double goes through the map of a unit as it did before. -/
theorem answerThrough_of_used (hused : w.Used (w.parsesBy number parse) w') (loud : Bool)
    (x : Double) :
    answerThrough loud (.ofDouble x) (w'.mapBy number parse unit) =
      answerThrough loud (.ofDouble x) (w.mapBy number parse unit) := by
  rw [mapBy, mapBy, parsesBy, hused.station_registry, hused.station_preferences, ← parsesBy]
  have hnonlinear := (extends_of_grows (hused.grows (w.station number).registry)).nonlinear_eq
  rw [mapOf.eq_def, mapOf.eq_def]
  split
  · rfl
  · rfl
  · next symbol _ =>
    rw [nonlinear?, nonlinear?, hnonlinear]
    split
    · rfl
    · rcases resolved_of_used hused (w.station number).registry symbol with
        ⟨-, hsame⟩ | ⟨-, multiplier, y, hresolved, hy, hentry⟩
      · rw [hsame]
      · -- the double meets the multiplier as it meets the double that is memoized
        have hstep : (Step.times (.double y)).run (.ofDouble x) =
            (Step.times multiplier).run (.ofDouble x) :=
          @Step.run_step_of_toDouble .toInternal _ _ _ rfl hy
        rw [hresolved, Registry.resolved, hentry, ← answerWith_toInternal, ← answerWith_toInternal]
        exact congrArg (Except.mapError Failure.number) hstep

/-- **Asking tells whether a conversion succeeds, and does not change it.** In a valid workspace,
after any actions, take a converter, a unit that may be missing or empty, and a flag that says
whether expressions are parsed, or none. If the nonlinear unit of that name, where there is one,
takes doubles, then the converter accepts the unit exactly if it converts a double by it, whichever;
and after it has been asked it answers the conversion as it would have before. -/
theorem accepts_iff_converts (hw : w.Valid) (actions : List Action) (number : Nat)
    (parse memoize : Option Bool) (unit : Option RawText) (x : Double)
    (htakes : ∀ nonlinear,
      unit.bind ((w.run actions).registry ((w.run actions).station number).registry).nonlinear? =
        some nonlinear → TakesDoubles nonlinear.toInternal) :
    let asked : Call := .accepts parse unit
    let conversion : Call :=
      .single .toInternal { parseCompound := parse, memoize, failLoud := some true } (.ofDouble x)
        unit
    ((w.run actions).answer number asked = .ok (.verdict true) ↔
      ∃ answer, (w.run actions).answer number conversion = .ok answer) ∧
    ((w.run actions).perform (.call number asked)).2.answer number conversion =
      (w.run actions).answer number conversion := by
  intro asked conversion
  have hvalid := hw.run actions
  generalize w.run actions = w at hvalid htakes
  have hused : w.Used (w.parsesBy number parse) (w.perform (.call number asked)).2 :=
    w.used_call_of_parses number asked
  have hmaps : ∀ map, w.mapBy number parse unit = .ok map → TakesDoubles map :=
    fun _ ↦ takesDoubles_of_mapOf (hvalid _) htakes
  constructor
  · rw [answer_accepts_eq_true_iff hvalid, answer_toInternal hvalid, answerThrough_iff hmaps x]
    generalize answerThrough true (.ofDouble x) _ = answer
    rcases answer with e | value <;> simp [Except.map]
  · rw [answer_toInternal (hvalid.perform _), answer_toInternal hvalid, answerThrough_of_used hused]

/-- The shared converter accepts degrees Fahrenheit, since it converts one degree. -/
theorem accepts_fahrenheit :
    (({} : Workspace).Valid ∧ ∀ nonlinear,
      (some (.ofString "degF")).bind
          ((({} : Workspace).run [.currentConverter]).registry 0).nonlinear? =
        some nonlinear → TakesDoubles nonlinear.toInternal) ∧
      (({} : Workspace).run [.currentConverter]).answer 0 (.accepts none "degF") =
        .ok (.verdict true) := by
  have htakes : ∀ nonlinear,
      (some (.ofString "degF")).bind
          ((({} : Workspace).run [.currentConverter]).registry 0).nonlinear? =
        some nonlinear → TakesDoubles nonlinear.toInternal :=
    fun nonlinear hnonlinear ↦ (@isStepwise_builtIn "degF" nonlinear hnonlinear).takesDoubles
  obtain ⟨unit, hunit⟩ : ∃ unit, Registry.builtIn.nonlinear? "degF" = some unit :=
    Option.isSome_iff_exists.1
      (SymbolMap.contains_iff_mem_keys.2 (nonlinear_keys_builtIn ▸ by simp))
  obtain ⟨result, hresult⟩ := (isStepwise_builtIn hunit).takesDoubles.total 1
  have hmap : (({} : Workspace).run [.currentConverter]).mapBy 0 none (some "degF") =
      .ok unit.toInternal := Registry.mapOf_nonlinear (by decide) hunit
  refine ⟨⟨valid_empty, htakes⟩,
    (accepts_iff_converts valid_empty [.currentConverter] 0 none none "degF" 1 htakes).1.2
      ⟨.value result, ?_⟩⟩
  rw [answer_toInternal (valid_empty.run _), hmap, answerThrough, hresult]
  rfl

end Workspace

end Metrology
