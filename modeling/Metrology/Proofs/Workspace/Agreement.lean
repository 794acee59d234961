import Metrology.Proofs.Converter.Failures
import Metrology.Proofs.Workspace.Transparency

/-!
# The ways to use a unit agree

A unit that is not nonlinear can be asked for its multiplier, and values can be converted by it into
internal units and out of them. All three resolve the unit (`Registry.resolved`) and do nothing else
that could fail, so they fail together, with one failure, or they use one multiplier: a value is
multiplied by it or divided by it, each of its numbers (`Step.run_eq_each`).

Calls that are made before make no difference to this, whichever they are, as long as they parse
expressions like the calls that are compared. If they parse, they memoize at most, and then the
unit is resolved to what it was, or to the double of that (`resolved_of_used`); if they do not, they
leave every registry as it is (`registry_run_of_not_parses`).
-/

namespace Metrology

/-! ### Values, number by number -/

/-- What a multiplier does to a double. -/
def Direction.onDouble (direction : Direction) (multiplier x : Double) : Double :=
  match direction with
  | toInternal => x * multiplier
  | fromInternal => x / multiplier

/-- The value with a function of doubles applied to each of its numbers. -/
def Value.each (f : Double → Double) : Value → Value
  | number (.int n) => ofDouble (f (Double.ofInt n))
  | number (.double x) => ofDouble (f x)
  | array grid => ofComputed (grid.map f)
  | cell x => cell (f x)

/-- By a usable multiplier every value that is no whole number can be converted, and each of its
numbers is multiplied or divided by the double of the multiplier. -/
theorem Step.run_eq_each {direction : Direction} {multiplier : Scalar} {x : Double} {value : Value}
    (hx : multiplier.toDouble = .ok x) (hzero : x.isZero = false) (hvalue : value.isWhole = false) :
    (direction.step multiplier).run value = .ok (value.each (direction.onDouble x)) := by
  have hdouble : (direction.step (.double x)).run value =
      .ok (value.each (direction.onDouble x)) := by
    cases value with
    | number y =>
      cases y with
      | int n => exact absurd hvalue (by simp [Value.isWhole])
      | double y =>
        cases direction with
        | toInternal => rfl
        | fromInternal => exact Step.run_dividedBy_double hzero
    | array grid | cell y => cases direction <;> rfl
  -- the value meets the multiplier as it meets its double
  rwa [Step.run_step_of_toDouble hvalue hx] at hdouble

/-! ### What a unit is resolved to -/

namespace Registry

/-- What a unit is resolved to: the registered multiplier, or else the value of its expression if
expressions are parsed. -/
def resolved (r : Registry) (parse : Bool) (unit : RawText) : Except Failure Scalar :=
  match r.linear? unit with
  | some multiplier => .ok multiplier
  | none => if parse then Expression.evaluate r unit else .error (.unit (.unknown unit))

variable {r r' : Registry} {unit : RawText}

theorem resolved_true (r : Registry) (unit : RawText) :
    r.resolved true unit = r.multiplierOf unit := by
  rw [resolved, multiplierOf, Option.bind_some]
  rfl

/-- A unit is resolved to a multiplier that can be used. -/
theorem isUsable_of_resolved_eq_ok (hvalid : r.Valid) {parse : Bool} {multiplier : Scalar}
    (h : r.resolved parse unit = .ok multiplier) : multiplier.isUsable = true := by
  rw [resolved] at h
  split at h
  · next hlinear => exact hvalid.usable (Except.ok.inj h ▸ hlinear)
  · split at h
    · exact isUsable_of_evaluate_eq_ok hvalid h
    · exact absurd h (by simp)

/-- Where there are only doubles, a unit is resolved to a double. -/
theorem isDouble_of_resolved_eq_ok (hdoubles : r.OnlyDoubles) {parse : Bool} {multiplier : Scalar}
    (h : r.resolved parse unit = .ok multiplier) : multiplier.IsDouble := by
  rw [resolved] at h
  split at h
  · next hlinear => exact hdoubles unit multiplier (Except.ok.inj h ▸ hlinear)
  · split at h
    · exact isDouble_of_evaluate_eq_ok hdoubles h
    · exact absurd h (by simp)

end Registry

namespace Converter

variable {c : Converter} {p : Preferences} {unit : RawText}

/-- Resolving a unit gives what the registry resolves it to. -/
theorem resolve_eq_resolved (hvalid : c.registry.Valid) (p : Preferences)
    (hnonlinear : c.registry.nonlinear? unit = none) :
    (c.resolve p (some unit)).1 = c.registry.resolved p.parseCompound unit := by
  rcases hparse : p.parseCompound with _ | _
  · rw [resolve, Registry.resolved, Option.bind_some, hparse]
    rcases c.registry.linear? unit with _ | multiplier <;> rfl
  · rw [Registry.resolved_true]
    exact resolve_fst hvalid hparse hnonlinear

/-! ### Calls that do not parse -/

theorem registry_resolve_of_not_parse (hparse : p.parseCompound = false) (unit : Option RawText) :
    (c.resolve p unit).2.registry = c.registry := by
  rcases h : c.resolve p unit with ⟨answer, after⟩
  have hresolution := h ▸ resolution c p unit
  cases hresolution with
  | registered | unknown | failed => rfl
  | parsed _ hon | memoized _ hon | refused _ hon => exact absurd (hon.symm.trans hparse) (by simp)

theorem registry_convertBy_of_not_parse {request : Request}
    (hparse : (c.preferences.override request).parseCompound = false) (direction : Direction)
    (value : Value) (unit : Option RawText) :
    (c.convertBy direction request value unit).2.registry = c.registry := by
  have hconversion := conversion c direction request value unit
  generalize c.convertBy direction request value unit = result at hconversion ⊢
  cases hconversion with
  | idle _ => rfl
  | nonlinear _ _ => exact (finish_snd _ _).1
  | linear _ _ => exact (settle_snd _ _ _ _ _).1.trans (registry_resolve_of_not_parse hparse _)

theorem registry_convertLoudly_of_not_parse (hparse : c.preferences.parseCompound = false)
    (value : Value) (source target : Option RawText) :
    (c.convertLoudly value source target).2.registry = c.registry := by
  have hfirst := @registry_convertBy_of_not_parse c { failLoud := some true } hparse .toInternal
    value source
  have hpreferences := preferences_convertBy c .toInternal { failLoud := some true } value source
  have hrelay := c.relay value source target
  generalize c.convertLoudly value source target = result at hrelay ⊢
  cases hrelay with
  | stopped hstopped => exact hstopped ▸ hfirst
  | @passed internal after hpassed =>
    rw [hpassed] at hfirst hpreferences
    have hparse' : after.preferences.parseCompound = false := by rwa [hpreferences]
    exact (@registry_convertBy_of_not_parse after { failLoud := some true } hparse' .fromInternal
      internal target).trans hfirst

end Converter

/-- A call that does not parse writes nothing. -/
theorem Call.registry_run_of_not_parses {call : Call} {c : Converter}
    (hparse : call.parses c.preferences = false) : (call.run c).2.registry = c.registry := by
  cases call with
  | single direction request value unit =>
    exact Converter.registry_convertBy_of_not_parse hparse direction value unit
  | between failLoud value source target =>
    have hloudly := Converter.registry_convertLoudly_of_not_parse hparse value source target
    have hexchange := c.exchange failLoud value source target
    rw [run, Prod.map_snd]
    generalize c.convert failLoud value source target = result at hexchange ⊢
    cases hexchange with
    | same _ => rfl
    | settled _ houtcome _ | refused _ houtcome =>
      rw [houtcome] at hloudly
      exact hloudly
  | accepts parseCompound unit =>
    rw [run, c.accepts_eq]
    exact Converter.registry_convertBy_of_not_parse hparse .toInternal (.ofDouble 1) unit
  | multiplier request unit =>
    rw [run, Prod.map_snd, Converter.multiplier]
    split
    · rfl
    · exact Converter.registry_resolve_of_not_parse hparse unit

namespace Workspace

variable {w w' : Workspace} {number : Nat} {unit : RawText} {parse : Bool}

/-! ### Calls that parse alike -/

/-- Calls of converters, as actions. -/
def callsOf (calls : List (Nat × Call)) : List Action :=
  calls.map fun asked ↦ .call asked.1 asked.2

/-- All of the calls parse, or none of them does. -/
def ParseAlike (w : Workspace) (parse : Bool) (calls : List (Nat × Call)) : Prop :=
  ∀ asked ∈ calls, asked.2.parses (w.station asked.1).preferences = parse

theorem used_call_of_parses (w : Workspace) (target : Nat) (call : Call) :
    w.Used (call.parses (w.station target).preferences) (w.use target call.run).2 :=
  used_use (call.used_run (w.converter target)).growsBy.grows fun hparse ↦
    Call.registry_run_of_not_parses hparse

/-- After calls that parse alike, registries have grown by memoizing, and not at all if the calls do
not parse. -/
theorem used_run_callsOf {calls : List (Nat × Call)} (h : w.ParseAlike parse calls) :
    w.Used parse (w.run (callsOf calls)) := by
  induction calls generalizing w with
  | nil => exact w.used_refl parse
  | cons asked calls ih =>
    obtain ⟨hfirst, hrest⟩ := List.forall_mem_cons.1 h
    have hused := w.used_call_of_parses asked.1 asked.2
    rw [hfirst] at hused
    refine hused.trans (ih fun other hother ↦ ?_)
    rw [hused.station_preferences]
    exact hrest other hother

/-- A unit whose entry is what it was is resolved to what it was; a new entry holds the double of
that. -/
theorem resolved_of_used (hused : w.Used parse w') (number : Nat) (unit : RawText) :
    (w'.registry number).linear? unit = (w.registry number).linear? unit ∧
        (w'.registry number).resolved parse unit = (w.registry number).resolved parse unit ∨
      (w.registry number).linear? unit = none ∧
        ∃ (multiplier : Scalar) (x : Double),
          (w.registry number).resolved parse unit = .ok multiplier ∧ multiplier.toDouble = .ok x ∧
            (w'.registry number).linear? unit = some (.double x) := by
  cases parse with
  | false => exact Or.inl (by rw [hused.registry_eq rfl]; exact ⟨rfl, rfl⟩)
  | true =>
    have hextends := Registry.extends_of_grows (hused.grows number)
    rcases hbefore : (w.registry number).linear? unit with _ | multiplier
    · rcases hafter : (w'.registry number).linear? unit with _ | multiplier
      · refine Or.inl ⟨rfl, ?_⟩
        rw [Registry.resolved, Registry.resolved, hbefore, hafter]
        exact hextends.evaluate_eq unit
      · obtain ⟨value, x, hvalue, hx, rfl⟩ := hextends.memoized hbefore hafter
        refine Or.inr ⟨rfl, value, x, ?_, hx, rfl⟩
        rw [Registry.resolved, hbefore]
        exact hvalue
    · have hafter := hextends.kept hbefore
      refine Or.inl ⟨hafter, ?_⟩
      rw [Registry.resolved, Registry.resolved, hbefore, hafter]

/-! ### The three ways -/

/-- A converter on a registry parses or not as it is said, and is loud, when it is asked in a way.
-/
structure AsksLoudly (w : Workspace) (number : Nat) (parse : Bool) (converter : Nat)
    (request : Request) : Prop where
  registry_eq : (w.station converter).registry = number
  parse_eq : ((w.station converter).preferences.override request).parseCompound = parse
  loud : ((w.station converter).preferences.override request).failLoud = true

/-- To ask for the multiplier of a unit and to convert a value by it, either way, fails alike. -/
structure FailsBy (w : Workspace) (converter : Nat) (request : Request) (unit : RawText)
    (e : Failure) : Prop where
  multiplier_eq : w.answer converter (.multiplier request unit) = .error e
  converted_eq : ∀ direction value,
    w.answer converter (.single direction request value unit) = .error e

/-- A multiplier is given for a unit, and by a double every value is converted, each of its numbers,
that is no whole number. -/
structure GoesBy (w : Workspace) (converter : Nat) (request : Request) (unit : RawText)
    (multiplier : Scalar) (x : Double) : Prop where
  multiplier_eq : w.answer converter (.multiplier request unit) = .ok (.multiplier multiplier)
  converted_eq : ∀ direction value, value.isWhole = false →
    w.answer converter (.single direction request value unit) =
      .ok (.value (value.each (direction.onDouble x)))

variable {converter : Nat} {request : Request}

theorem AsksLoudly.used (h : w.AsksLoudly number parse converter request) {memoize : Bool}
    (hused : w.Used memoize w') : w'.AsksLoudly number parse converter request where
  registry_eq := (hused.station_registry converter).trans h.registry_eq
  parse_eq := by
    rw [hused.station_preferences]
    exact h.parse_eq
  loud := by
    rw [hused.station_preferences]
    exact h.loud

/-- The multiplier of a unit that is not nonlinear is what the unit is resolved to. -/
theorem answer_multiplier (hw : w.Valid) (h : w.AsksLoudly number parse converter request)
    (hnonlinear : (w.registry number).nonlinear? unit = none) :
    w.answer converter (.multiplier request unit) =
      ((w.registry number).resolved parse unit).map .multiplier := by
  obtain ⟨rfl, rfl, -⟩ := h
  have hresolve : ((w.converter converter).multiplier request unit).1 =
      ((w.converter converter).resolve ((w.station converter).preferences.override request)
        (some unit)).1 := by
    rw [Converter.multiplier]
    split
    · next nonlinear hsome => exact absurd (hsome.symm.trans hnonlinear) (by simp)
    · rfl
  have hanswer := hresolve.trans (Converter.resolve_eq_resolved (hw _) _ hnonlinear)
  exact congrArg (Except.map Answer.multiplier) hanswer

/-- A value is converted by what its unit is resolved to. -/
theorem answer_single (hw : w.Valid) (h : w.AsksLoudly number parse converter request)
    (hunit : unit ≠ "") (hnonlinear : (w.registry number).nonlinear? unit = none)
    (direction : Direction) (value : Value) :
    w.answer converter (.single direction request value unit) =
      (Registry.answerWith direction true value
        ((w.registry number).resolved parse unit)).map .value := by
  obtain ⟨rfl, rfl, hloud⟩ := h
  have hconvert : ((w.converter converter).convertBy direction request value unit).1 =
      Registry.answerWith direction true value
        ((w.registry (w.station converter).registry).resolved
          ((w.station converter).preferences.override request).parseCompound unit) := by
    rw [Converter.convertBy_linear hunit hnonlinear, Converter.settle_fst,
      Converter.resolve_eq_resolved (hw _) _ hnonlinear]
    exact congrArg (Registry.answerWith direction · value _) hloud
  exact congrArg (Except.map Answer.value) hconvert

theorem failsBy_of_resolved (hw : w.Valid) (h : w.AsksLoudly number parse converter request)
    (hunit : unit ≠ "") (hnonlinear : (w.registry number).nonlinear? unit = none) {e : Failure}
    (hresolved : (w.registry number).resolved parse unit = .error e) :
    w.FailsBy converter request unit e := by
  refine ⟨?_, fun direction value ↦ ?_⟩
  · rw [answer_multiplier hw h hnonlinear, hresolved]
    rfl
  · rw [answer_single hw h hunit hnonlinear, hresolved]
    cases e <;> rfl

theorem goesBy_of_resolved (hw : w.Valid) (h : w.AsksLoudly number parse converter request)
    (hunit : unit ≠ "") (hnonlinear : (w.registry number).nonlinear? unit = none)
    {multiplier : Scalar} {x : Double}
    (hresolved : (w.registry number).resolved parse unit = .ok multiplier)
    (hx : multiplier.toDouble = .ok x) (hzero : x.isZero = false) :
    w.GoesBy converter request unit multiplier x := by
  refine ⟨?_, fun direction value hvalue ↦ ?_⟩
  · rw [answer_multiplier hw h hnonlinear, hresolved]
    rfl
  · rw [answer_single hw h hunit hnonlinear, hresolved, Registry.answerWith,
      Step.run_eq_each hx hzero hvalue]
    rfl

/-- **The ways to use a unit agree.** Take a unit that is not nonlinear, and any calls made before,
all of which parse expressions or none. To ask for its multiplier and to convert values by it,
loudly and parsing like those calls, fails every time and with one failure; or there is one
multiplier by whose double every value is converted that is no whole number, each of its numbers
multiplied or divided by it, and that is the multiplier that is asked for: as it is while the entry
of the unit is what it was, and as its double once that is memoized. Where there are only doubles
this is no difference. -/
theorem uses_agree (hw : w.Valid) (hunit : unit ≠ "")
    (hnonlinear : (w.registry number).nonlinear? unit = none) (parse : Bool) :
    (∃ e, ∀ calls, w.ParseAlike parse calls →
      ∀ converter request, w.AsksLoudly number parse converter request →
        (w.run (callsOf calls)).FailsBy converter request unit e) ∨
    ∃ (m : Scalar) (x : Double), m.toDouble = .ok x ∧ x.isFiniteNonzero = true ∧
      ((w.registry number).OnlyDoubles → m = .double x) ∧
      ∀ calls, w.ParseAlike parse calls →
        ∀ converter request, w.AsksLoudly number parse converter request →
          ((w.run (callsOf calls)).registry number).linear? unit =
                (w.registry number).linear? unit ∧
              (w.run (callsOf calls)).GoesBy converter request unit m x ∨
            (w.registry number).linear? unit = none ∧
              ((w.run (callsOf calls)).registry number).linear? unit = some (.double x) ∧
              (w.run (callsOf calls)).GoesBy converter request unit (.double x) x := by
  -- what was called before has memoized at most, so it left the nonlinear units as they were
  have hkept : ∀ calls, w.ParseAlike parse calls → w.Used parse (w.run (callsOf calls)) ∧
      ((w.run (callsOf calls)).registry number).nonlinear? unit = none := by
    intro calls hcalls
    have hused := used_run_callsOf hcalls
    have hextends := Registry.extends_of_grows (hused.grows number)
    refine ⟨hused, ?_⟩
    rw [Registry.nonlinear?, hextends.nonlinear_eq]
    exact hnonlinear
  rcases hresolved : (w.registry number).resolved parse unit with e | m
  · refine Or.inl ⟨e, fun calls hcalls converter request hasks ↦ ?_⟩
    obtain ⟨hused, hnonlinear'⟩ := hkept calls hcalls
    refine failsBy_of_resolved (hw.used hused) (hasks.used hused) hunit hnonlinear' ?_
    rcases resolved_of_used hused number unit with ⟨-, hsame⟩ | ⟨-, m, x, hm, -⟩
    · exact hsame.trans hresolved
    · exact absurd (hresolved.symm.trans hm) (by simp)
  · have husable := Registry.isUsable_of_resolved_eq_ok (hw number) hresolved
    obtain ⟨x, hx, hfinite⟩ := Scalar.exists_toDouble_of_isUsable husable
    have hzero : x.isZero = false :=
      show (Scalar.double x).isZero = false from Scalar.isZero_of_isUsable hfinite
    refine Or.inr ⟨m, x, hx, hfinite, fun hdoubles ↦ ?_,
      fun calls hcalls converter request hasks ↦ ?_⟩
    · obtain ⟨y, rfl⟩ := Registry.isDouble_of_resolved_eq_ok hdoubles hresolved
      exact congrArg Scalar.double (Except.ok.inj hx)
    · obtain ⟨hused, hnonlinear'⟩ := hkept calls hcalls
      have hw' := hw.used hused
      have hasks' := hasks.used hused
      rcases resolved_of_used hused number unit with
        ⟨hentry, hsame⟩ | ⟨hnone, m', x', hm', hx', hentry⟩
      · exact Or.inl ⟨hentry, goesBy_of_resolved hw' hasks' hunit hnonlinear'
          (hsame.trans hresolved) hx hzero⟩
      · obtain rfl : m = m' := Except.ok.inj (hresolved.symm.trans hm')
        obtain rfl : x = x' := Except.ok.inj (hx.symm.trans hx')
        have hresolved' : ((w.run (callsOf calls)).registry number).resolved parse unit =
            .ok (.double x) := by
          rw [Registry.resolved, hentry]
        exact Or.inr ⟨hnone, hentry,
          goesBy_of_resolved hw' hasks' hunit hnonlinear' hresolved' rfl hzero⟩

theorem valid_mixedUnits : mixedUnits.Valid := valid_empty.run _

/-- An area goes by a whole number that is no double until it is memoized, and then by the double
next to that. -/
theorem uses_agree_area :
    (mixedUnits.Valid ∧ RawText.ofString "a a" ≠ "" ∧
        (mixedUnits.registry 0).nonlinear? "a a" = none) ∧
      ∀ calls, mixedUnits.ParseAlike true calls →
        ∀ converter request, mixedUnits.AsksLoudly 0 true converter request →
          ((mixedUnits.run (callsOf calls)).registry 0).linear? "a a" = none ∧
              (mixedUnits.run (callsOf calls)).GoesBy converter request "a a"
                (.int 9007199515875289) 9007199515875288 ∨
            ((mixedUnits.run (callsOf calls)).registry 0).linear? "a a" =
                some (.double 9007199515875288) ∧
              (mixedUnits.run (callsOf calls)).GoesBy converter request "a a"
                (.double 9007199515875288) 9007199515875288 := by
  have hnonlinear : (mixedUnits.registry 0).nonlinear? "a a" = none := by decide +kernel
  have hnone : (mixedUnits.registry 0).linear? "a a" = none := by decide +kernel
  have hnothing : mixedUnits.ParseAlike true [] := fun _ hasked ↦ absurd hasked List.not_mem_nil
  have hasks : mixedUnits.AsksLoudly 0 true 0 {} := ⟨rfl, rfl, rfl⟩
  have hfirst : numberIn (mixedUnits.answer 0 (.multiplier {} "a a")) =
      some (.int 9007199515875289) := by decide +kernel
  refine ⟨⟨valid_mixedUnits, by decide, hnonlinear⟩, ?_⟩
  rcases uses_agree valid_mixedUnits (by decide) hnonlinear true with
    ⟨e, hfails⟩ | ⟨m, x, hx, -, -, hgoes⟩
  · -- a call that is made first has an answer
    have hanswer := (hfails [] hnothing 0 {} hasks).multiplier_eq
    rw [show mixedUnits.answer 0 (.multiplier {} "a a") = .error e from hanswer] at hfirst
    exact absurd hfirst (by simp [numberIn])
  · -- at first there is no entry, so the answer is the multiplier itself
    obtain rfl : m = .int 9007199515875289 := by
      rcases hgoes [] hnothing 0 {} hasks with ⟨-, hgoes⟩ | ⟨-, hentry, -⟩
      · rw [show mixedUnits.answer 0 (.multiplier {} "a a") = .ok (.multiplier m) from
          hgoes.multiplier_eq] at hfirst
        exact Option.some_inj.1 hfirst
      · exact absurd (hnone.symm.trans hentry) (by simp)
    have hdouble : (Scalar.int 9007199515875289).toDouble = .ok 9007199515875288 := by
      decide +kernel
    have hxeq : x = 9007199515875288 := Except.ok.inj (hx.symm.trans hdouble)
    rw [hxeq] at hgoes
    intro calls hcalls converter request hasks
    rcases hgoes calls hcalls converter request hasks with ⟨hentry, hgoes⟩ | ⟨-, hentry, hgoes⟩
    · exact Or.inl ⟨hentry.trans hnone, hgoes⟩
    · exact Or.inr ⟨hentry, hgoes⟩

/-- Asked for first, the multiplier of an area is a whole number; asked for after a conversion it is
the double next to that. -/
theorem multiplier_ne_after_conversion :
    (mixedUnits.Valid ∧ (mixedUnits.registry 0).nonlinear? "a a" = none) ∧
      numberIn (mixedUnits.answer 0 (.multiplier {} "a a")) = some (.int 9007199515875289) ∧
      numberIn ((mixedUnits.run
        (callsOf [(0, .single .toInternal {} (.ofDouble 1) "a a")])).answer 0
          (.multiplier {} "a a")) = some (.double 9007199515875288) ∧
      Scalar.eqv (.int 9007199515875289) (.double 9007199515875288) = false :=
  ⟨⟨valid_mixedUnits, by decide +kernel⟩, by decide +kernel, by decide +kernel, by decide +kernel⟩

end Workspace

end Metrology
