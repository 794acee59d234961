import Metrology.Proofs.Converter.Resolution

/-!
# Calls

What a converter can be asked to do, as data, so that sequences of calls can be spoken of. A
`Call` is run on a converter by `Call.run`, and `Call.answerIn` says what it is answered from a
registry that nothing is written to.

The two give the same answer when expressions are parsed (`Call.run_fst`). The one call that
resolves two units does so one after the other, so the second is resolved in what the first has
left: that the answer is the same even so rests on the units being different
(`Memoizes.answerBy_eq`).

A call leaves the registry grown by memoizing, or as it was, if it does not memoize
(`Call.used_run`).
-/

namespace Metrology

/-- What a converter can be asked. -/
inductive Call where
  /-- To convert a value by one unit. -/
  | single (direction : Direction) (request : Request) (value : Value) (unit : Option RawText)
  /-- To convert a value between two units. -/
  | between (failLoud : Option Bool) (value : Value) (source target : Option RawText)
  /-- Whether it can convert values in a unit. -/
  | accepts (parseCompound : Option Bool) (unit : Option RawText)
  /-- For the multiplier of a unit. -/
  | multiplier (request : Request) (unit : Option RawText)

/-- What a call is answered with. -/
inductive Answer where
  | value (value : Value)
  | verdict (accepted : Bool)
  | multiplier (multiplier : Scalar)

/-! ### Answers from a registry -/

namespace Registry

/-- What is answered when a value is converted between two units. -/
def answerBetween (r : Registry) (loud : Bool) (value : Value) (source target : Option RawText) :
    Except Failure Value :=
  if source = target then .ok value
  else
    match r.answerBy .toInternal true value source >>= (r.answerBy .fromInternal true · target) with
    | .error (.unit cause) =>
      if loud then .error (.unit (.between source target cause)) else .ok value.nanLike
    | outcome => outcome

/-- What is answered when the multiplier of a unit is asked for. -/
def answerMultiplier (r : Registry) (unit : Option RawText) : Except Failure Scalar :=
  match unit.bind r.nonlinear? with
  | some _ => .error (.unit (.noMultiplier (unit.getD "")))
  | none => r.multiplierOf unit

variable {r r' : Registry}

/-- An answer depends on the registry by what the unit is in it. -/
theorem answerBy_congr (hnonlinear : r'.nonlinear = r.nonlinear) {unit : Option RawText}
    (hmultiplier : r'.multiplierOf unit = r.multiplierOf unit) (direction : Direction) (loud : Bool)
    (value : Value) :
    r'.answerBy direction loud value unit = r.answerBy direction loud value unit := by
  rw [answerBy.eq_def, answerBy.eq_def]
  split
  · rfl
  · rfl
  · rw [hmultiplier, nonlinear?, nonlinear?, hnonlinear]

theorem bind_nonlinear?_congr (hnonlinear : r'.nonlinear = r.nonlinear) (unit : Option RawText) :
    unit.bind r'.nonlinear? = unit.bind r.nonlinear? := by
  cases unit with
  | none => rfl
  | some symbol => exact congrArg (·.get? symbol) hnonlinear

theorem answerMultiplier_congr (hnonlinear : r'.nonlinear = r.nonlinear) {unit : Option RawText}
    (hmultiplier : r'.multiplierOf unit = r.multiplierOf unit) :
    r'.answerMultiplier unit = r.answerMultiplier unit := by
  rw [answerMultiplier, answerMultiplier, hmultiplier, bind_nonlinear?_congr hnonlinear]

/-- Memoizing a unit changes no answer by another one. -/
theorem Memoizes.answerBy_eq {symbol : RawText} {unit : Option RawText} (h : Memoizes symbol r r')
    (hne : unit ≠ some symbol) (direction : Direction) (loud : Bool) (value : Value) :
    r'.answerBy direction loud value unit = r.answerBy direction loud value unit :=
  answerBy_congr ((extends_refl r).memoizes h).nonlinear_eq (h.multiplierOf_eq hne) direction loud
    value

end Registry

namespace Call

/-- The settings that a call resolves units with. -/
def request : Call → Request
  | single _ request _ _ | multiplier request _ => request
  | between _ _ _ _ => { failLoud := some true }
  | accepts parseCompound _ => { parseCompound, failLoud := some false }

/-- The units of a call. -/
def units : Call → List (Option RawText)
  | single _ _ _ unit | accepts _ unit | multiplier _ unit => [unit]
  | between _ _ source target => [source, target]

/-- Expressions are parsed when the call is made of a converter with the preferences. -/
def parses (call : Call) (p : Preferences) : Bool := (p.override call.request).parseCompound

/-- Parsed expressions are memoized when the call is made of a converter with the preferences. -/
def memoizes (call : Call) (p : Preferences) : Bool := (p.override call.request).memoize

/-- Runs a call on a converter. -/
def run (call : Call) (c : Converter) : Except Failure Answer × Converter :=
  match call with
  | single direction request value unit =>
    (c.convertBy direction request value unit).map (Except.map Answer.value) id
  | between failLoud value source target =>
    (c.convert failLoud value source target).map (Except.map Answer.value) id
  | accepts parseCompound unit =>
    (c.accepts parseCompound unit).map (Except.map Answer.verdict) id
  | multiplier request unit => (c.multiplier request unit).map (Except.map Answer.multiplier) id

/-- What a call is answered from a registry when expressions are parsed. -/
def answerIn (r : Registry) (p : Preferences) : Call → Except Failure Answer
  | single direction request value unit =>
    (r.answerBy direction (p.override request).failLoud value unit).map .value
  | between failLoud value source target =>
    (r.answerBetween (failLoud.getD p.failLoud) value source target).map .value
  | accepts _ unit =>
    (r.answerBy .toInternal false (.ofDouble 1) unit).map
      fun value ↦ .verdict !Converter.isNaN value
  | multiplier _ unit => (r.answerMultiplier unit).map .multiplier

end Call

/-! ### What a call does to the converter -/

/-- A converter has been used: its registry has grown by memoizing some units, and if it was not to
memoize, not at all. -/
structure Converter.Used (c : Converter) (units : List (Option RawText)) (memoize : Bool)
    (after : Converter) : Prop where
  preferences_eq : after.preferences = c.preferences
  growsBy : c.registry.GrowsBy units after.registry
  registry_eq : memoize = false → after.registry = c.registry

namespace Converter

variable {c after : Converter} {memoize : Bool} {units : List (Option RawText)}

theorem used_refl (c : Converter) (units : List (Option RawText)) (memoize : Bool) :
    c.Used units memoize c :=
  ⟨rfl, .refl, fun _ ↦ rfl⟩

theorem Used.trans {last : Converter} (h : c.Used units memoize after)
    (h' : after.Used units memoize last) : c.Used units memoize last :=
  ⟨h'.preferences_eq.trans h.preferences_eq, h.growsBy.trans h'.growsBy,
    fun hoff ↦ (h'.registry_eq hoff).trans (h.registry_eq hoff)⟩

theorem Used.mono {units' : List (Option RawText)} (h : c.Used units memoize after)
    (hsubset : units ⊆ units') : c.Used units' memoize after :=
  ⟨h.preferences_eq, h.growsBy.mono hsubset, h.registry_eq⟩

theorem used_of_memoizes {unit : Option RawText} (hpreferences : after.preferences = c.preferences)
    (h : after.registry = c.registry ∨ ∃ symbol, unit = some symbol ∧ memoize = true ∧
      c.registry.Memoizes symbol after.registry) : c.Used [unit] memoize after := by
  rcases h with h | ⟨symbol, rfl, hon, hmemoizes⟩
  · exact ⟨hpreferences, h ▸ .refl, fun _ ↦ h⟩
  · exact ⟨hpreferences, hmemoizes.growsBy (List.mem_singleton_self _),
      fun hoff ↦ absurd (hon.symm.trans hoff) (by simp)⟩

theorem used_resolve (c : Converter) (p : Preferences) (unit : Option RawText) :
    c.Used [unit] p.memoize (c.resolve p unit).2 :=
  used_of_memoizes (preferences_resolve c p unit) (registry_resolve c p unit)

theorem used_convertBy (c : Converter) (direction : Direction) (request : Request) (value : Value)
    (unit : Option RawText) :
    c.Used [unit] (c.preferences.override request).memoize
      (c.convertBy direction request value unit).2 :=
  used_of_memoizes (preferences_convertBy c direction request value unit)
    (registry_convertBy c direction request value unit)

/-- Both single conversions use the converter with its own preferences. -/
theorem used_convertLoudly (c : Converter) (value : Value) (source target : Option RawText) :
    c.Used [source, target] c.preferences.memoize (c.convertLoudly value source target).2 := by
  have hused := (c.used_convertBy .toInternal { failLoud := some true } value source).mono
    (List.subset_append_left [source] [target])
  have hrelay := c.relay value source target
  generalize c.convertLoudly value source target = result at hrelay ⊢
  cases hrelay with
  | stopped hfirst => exact hfirst ▸ hused
  | @passed internal after hfirst =>
    rw [hfirst] at hused
    have hsecond := (after.used_convertBy .fromInternal { failLoud := some true } internal
      target).mono (List.subset_append_right [source] [target])
    rw [hused.preferences_eq] at hsecond
    exact hused.trans hsecond

theorem used_convert (c : Converter) (failLoud : Option Bool) (value : Value)
    (source target : Option RawText) :
    c.Used [source, target] c.preferences.memoize (c.convert failLoud value source target).2 := by
  have hused := c.used_convertLoudly value source target
  have hexchange := c.exchange failLoud value source target
  generalize c.convert failLoud value source target = result at hexchange ⊢
  cases hexchange with
  | same => exact c.used_refl _ _
  | settled _ hloudly | refused _ hloudly =>
    rw [hloudly] at hused
    exact hused

/-- Asking whether a unit is accepted is converting one by it, quietly. -/
theorem accepts_eq (c : Converter) (parseCompound : Option Bool) (unit : Option RawText) :
    c.accepts parseCompound unit =
      (c.convertBy .toInternal { parseCompound, failLoud := some false } (.ofDouble 1) unit).map
        (Except.map (!isNaN ·)) id := by
  rw [accepts, toInternal]
  rcases c.convertBy .toInternal { parseCompound, failLoud := some false } (.ofDouble 1) unit with
    ⟨e | value, after⟩ <;> rfl

theorem used_accepts (c : Converter) (parseCompound : Option Bool) (unit : Option RawText) :
    c.Used [unit] c.preferences.memoize (c.accepts parseCompound unit).2 := by
  rw [accepts_eq]
  exact c.used_convertBy .toInternal { parseCompound, failLoud := some false } (.ofDouble 1) unit

theorem used_multiplier (c : Converter) (request : Request) (unit : Option RawText) :
    c.Used [unit] (c.preferences.override request).memoize (c.multiplier request unit).2 := by
  rw [multiplier]
  split
  · exact c.used_refl _ _
  · exact c.used_resolve _ unit

/-! ### What is answered -/

/-- The second unit is resolved in what the first one has left, which makes no difference to it. -/
theorem convertLoudly_fst (hvalid : c.registry.Valid) (hparse : c.preferences.parseCompound = true)
    {source target : Option RawText} (hne : source ≠ target) (value : Value) :
    (c.convertLoudly value source target).1 =
      c.registry.answerBy .toInternal true value source >>=
        (c.registry.answerBy .fromInternal true · target) := by
  have hanswer : (c.convertBy .toInternal { failLoud := some true } value source).1 =
      c.registry.answerBy .toInternal true value source := convertBy_fst hvalid hparse
  have hused := c.used_convertBy .toInternal { failLoud := some true } value source
  have hregistry := registry_convertBy c .toInternal { failLoud := some true } value source
  have hrelay := c.relay value source target
  rw [← hanswer]
  generalize c.convertLoudly value source target = result at hrelay ⊢
  cases hrelay with
  | stopped hfirst =>
    rw [hfirst]
    rfl
  | @passed internal after hfirst =>
    rw [hfirst] at hused hregistry ⊢
    have hvalid' : after.registry.Valid := hvalid.grows hused.growsBy.grows
    have hparse' : after.preferences.parseCompound = true := by rwa [hused.preferences_eq]
    have hsecond : (after.convertBy .fromInternal { failLoud := some true } internal target).1 =
        after.registry.answerBy .fromInternal true internal target := convertBy_fst hvalid' hparse'
    show (after.convertBy .fromInternal { failLoud := some true } internal target).1 =
      c.registry.answerBy .fromInternal true internal target
    rw [hsecond]
    -- at most the source has been memoized, and the target is another unit
    rcases hregistry with hsame | ⟨symbol, rfl, -, hmemoizes⟩
    · exact congrArg (fun r ↦ r.answerBy .fromInternal true internal target) hsame
    · exact hmemoizes.answerBy_eq hne.symm .fromInternal true internal

theorem convert_fst (hvalid : c.registry.Valid) (hparse : c.preferences.parseCompound = true)
    (failLoud : Option Bool) (value : Value) (source target : Option RawText) :
    (c.convert failLoud value source target).1 =
      c.registry.answerBetween (failLoud.getD c.preferences.failLoud) value source target := by
  rw [convert, Registry.answerBetween]
  split
  · rfl
  · next hne =>
    rw [← convertLoudly_fst hvalid hparse hne]
    rcases c.convertLoudly value source target with ⟨e | result, after⟩
    · cases e with
      | unit cause => cases failLoud.getD c.preferences.failLoud <;> rfl
      | _ => rfl
    · rfl

theorem accepts_fst (hvalid : c.registry.Valid) {parseCompound : Option Bool}
    (hparse : parseCompound.getD c.preferences.parseCompound = true) (unit : Option RawText) :
    (c.accepts parseCompound unit).1 =
      (c.registry.answerBy .toInternal false (.ofDouble 1) unit).map (!isNaN ·) := by
  rw [accepts_eq]
  exact congrArg (Except.map (!isNaN ·)) (convertBy_fst hvalid hparse)

theorem multiplier_fst (hvalid : c.registry.Valid) {request : Request}
    (hparse : (c.preferences.override request).parseCompound = true) (unit : Option RawText) :
    (c.multiplier request unit).1 = c.registry.answerMultiplier unit := by
  rcases hnonlinear : unit.bind c.registry.nonlinear? with _ | nonlinear
  · simp only [multiplier, Registry.answerMultiplier, hnonlinear]
    exact resolve_fst hvalid hparse hnonlinear
  · simp only [multiplier, Registry.answerMultiplier, hnonlinear]

end Converter

namespace Call

theorem used_run (call : Call) (c : Converter) :
    c.Used call.units (call.memoizes c.preferences) (call.run c).2 := by
  cases call with
  | single direction request value unit => exact c.used_convertBy direction request value unit
  | between failLoud value source target => exact c.used_convert failLoud value source target
  | accepts parseCompound unit => exact c.used_accepts parseCompound unit
  | multiplier request unit => exact c.used_multiplier request unit

/-- A call is answered from the registry alone. -/
theorem run_fst {c : Converter} (call : Call) (hvalid : c.registry.Valid)
    (hparse : call.parses c.preferences = true) :
    (call.run c).1 = call.answerIn c.registry c.preferences := by
  cases call with
  | single direction request value unit =>
    exact congrArg (Except.map Answer.value) (Converter.convertBy_fst hvalid hparse)
  | between failLoud value source target =>
    exact congrArg (Except.map Answer.value) (Converter.convert_fst hvalid hparse _ _ _ _)
  | accepts parseCompound unit =>
    have hanswer : (c.accepts parseCompound unit).1 =
        (c.registry.answerBy .toInternal false (.ofDouble 1) unit).map (!Converter.isNaN ·) :=
      Converter.accepts_fst hvalid hparse unit
    rw [run, answerIn, Prod.map_fst, hanswer]
    rcases c.registry.answerBy .toInternal false (.ofDouble 1) unit <;> rfl
  | multiplier request unit =>
    exact congrArg (Except.map Answer.multiplier) (Converter.multiplier_fst hvalid hparse unit)

end Call

end Metrology
