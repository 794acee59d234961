import Metrology.Proofs.Converter.Steps
import Metrology.Proofs.Registry.InPlace
import Metrology.Proofs.Settings.Registry
import Metrology.Proofs.Workspace.Agreement

/-!
# Accepted units

A unit is accepted if it is empty or registered or, where expressions are parsed, an expression with
a value (`Registry.Accepts`). The preferences of a converter say whether they are parsed, unless a
call says so itself.

Over a registry in which nothing else can go wrong, how a double is converted is decided by that
alone: it becomes a double if the unit is accepted, and otherwise not-a-number or the failure of the
unit (`Answered`). That holds of a single conversion (`answered_convertBy`), and of one between two
units (`answered_convert`), where the second unit is looked up in what the first one has left:
memoized entries make no difference to what is accepted (`Extends.accepts_iff`). Asked about a unit,
a converter answers whether it is accepted (`exists_accepts_eq`).
-/

namespace Metrology

open Registry

/-! ### Accepting -/

namespace Registry

variable {r r' : Registry} {parse : Bool} {unit : RawText}

/-- A unit is empty, or registered, or an expression with a value where expressions are parsed. -/
def Accepts (r : Registry) (parse : Bool) (unit : RawText) : Prop :=
  unit = "" ∨ r.contains unit = true ∨
    parse = true ∧ ∃ multiplier, Expression.evaluate r unit = .ok multiplier

theorem accepts_of_contains (h : r.contains unit = true) : r.Accepts parse unit :=
  Or.inr (Or.inl h)

/-- Parsing adds the expressions with a value. -/
theorem accepts_true_iff : r.Accepts true unit ↔ r.Accepts parse unit ∨
    parse = false ∧ ∃ multiplier, Expression.evaluate r unit = .ok multiplier := by
  cases parse <;> simp [Accepts, or_assoc]

theorem contains_of_linear? {multiplier : Scalar} (h : r.linear? unit = some multiplier) :
    r.contains unit = true := by
  rw [← Bool.not_eq_false, contains_eq_false_iff, h]
  simp

theorem contains_of_nonlinear? {nonlinear : NonlinearUnit}
    (h : r.nonlinear? unit = some nonlinear) : r.contains unit = true := by
  rw [← Bool.not_eq_false, contains_eq_false_iff, h]
  simp

/-- A unit that is not nonlinear is accepted if it is resolved. -/
theorem accepts_iff_resolved (hunit : unit ≠ "") (hnonlinear : r.nonlinear? unit = none)
    (parse : Bool) :
    r.Accepts parse unit ↔ ∃ multiplier, r.resolved parse unit = .ok multiplier := by
  rw [Accepts, resolved]
  rcases hlinear : r.linear? unit with _ | multiplier
  · rw [contains_eq_false_iff.2 ⟨hlinear, hnonlinear⟩]
    cases parse <;> simp [hunit]
  · rw [contains_of_linear? hlinear]
    simp

/-- Where only doubles are registered, a unit that is not resolved is itself at fault. -/
theorem exists_unit_of_resolved_eq_error (hdoubles : r.OnlyDoubles) {e : Failure}
    (h : r.resolved parse unit = .error e) : ∃ cause, e = .unit cause := by
  rw [resolved] at h
  split at h
  · exact absurd h (by simp)
  · split at h
    · rcases failure_of_evaluate h with ⟨fault, part, rfl⟩ | ⟨rfl, -⟩
      · exact ⟨_, rfl⟩
      · exact absurd h (hdoubles.not_overflows unit)
    · exact ⟨_, (Except.error.inj h).symm⟩

/-- Memoized entries make no difference to what is accepted. -/
theorem Extends.accepts_iff (h : Extends r r') (hdoubles : r.OnlyDoubles) (unit : RawText) :
    r'.Accepts true unit ↔ r.Accepts true unit := by
  by_cases hunit : unit = ""
  · exact iff_of_true (Or.inl hunit) (Or.inl hunit)
  · have hsame : r'.nonlinear? unit = r.nonlinear? unit := by
      rw [nonlinear?, h.nonlinear_eq]
      rfl
    rcases hnonlinear : r.nonlinear? unit with _ | nonlinear
    · rw [accepts_iff_resolved hunit hnonlinear, resolved_true,
        accepts_iff_resolved hunit (hsame.trans hnonlinear), resolved_true,
        multiplierOf_eq_of_onlyDoubles h hdoubles]
    · exact iff_of_true (accepts_of_contains (contains_of_nonlinear? (hsame.trans hnonlinear)))
        (accepts_of_contains (contains_of_nonlinear? hnonlinear))

end Registry

/-! ### Answers -/

/-- What becomes of a double whose units are accepted or not: another double, or else not-a-number
if failures are quiet, and the failure of a unit if they are loud. -/
inductive Answered (accepted : Prop) (loud : Bool) : Except Failure Double → Prop where
  | number (h : accepted) (x : Double) : Answered accepted loud (.ok x)
  | silent (h : ¬accepted) (hloud : loud = false) : Answered accepted loud (.ok .nan)
  | refused (h : ¬accepted) (hloud : loud = true) (cause : UnitError) :
      Answered accepted loud (.error (.unit cause))

namespace Answered

variable {accepted : Prop} {loud : Bool} {answer : Except Failure Double}

theorem congr {accepted' : Prop} (h : Answered accepted loud answer)
    (haccepted : accepted ↔ accepted') : Answered accepted' loud answer :=
  propext haccepted ▸ h

/-- If failures are loud there is a double exactly if the units are accepted. -/
theorem isOk_iff (h : Answered accepted true answer) : answer.isOk = true ↔ accepted := by
  cases h with
  | number h x => exact iff_of_true rfl h
  | silent h hloud => exact absurd hloud (by simp)
  | refused h _ cause => exact iff_of_false Bool.false_ne_true h

end Answered

/-! ### Doubles -/

theorem Registry.OnlyDoubles.grows {r r' : Registry} (hr : r.OnlyDoubles) (h : Grows r r') :
    r'.OnlyDoubles := by
  induction h with
  | refl => exact hr
  | tail _ hstep ih =>
    obtain ⟨unit, -, multiplier, -, hinsert⟩ := hstep
    exact ih.insertScalar hinsert

/-- Memoizing leaves a registry in which nothing else can go wrong. -/
theorem Settings.WellBuilt.grows {r r' : Registry} (hr : WellBuilt r) (h : Grows r r') :
    WellBuilt r' where
  valid := hr.valid.grows h
  onlyDoubles := hr.onlyDoubles.grows h
  total := hr.total.congr (extends_of_grows h).nonlinear_eq

namespace Converter

variable {c : Converter}

/-- **How a double is converted is decided by whether the unit is accepted.** -/
theorem answered_convertBy (hc : Settings.WellBuilt c.registry) (direction : Direction)
    (request : Request) (x : Double) (unit : RawText) :
    ∃ answer, Answered (c.registry.Accepts (c.preferences.override request).parseCompound unit)
        (c.preferences.override request).failLoud answer ∧
      (c.convertBy direction request (.ofDouble x) (some unit)).1 = answer.map Value.ofDouble := by
  have hconversion := c.conversion direction request (.ofDouble x) (some unit)
  generalize c.convertBy direction request (.ofDouble x) (some unit) = result at hconversion ⊢
  cases hconversion with
  | idle hunit => exact ⟨.ok x, .number (Or.inl (by simpa using hunit)) x, rfl⟩
  | nonlinear hsymbol hnonlinear =>
    obtain ⟨result, hresult⟩ := hc.total _ _ hnonlinear direction (.ofDouble x) rfl
    obtain ⟨y, rfl⟩ := (direction.map _).isDouble_run hresult
    refine ⟨.ok y, .number (accepts_of_contains (contains_of_nonlinear? hnonlinear)) y, ?_⟩
    rw [finish_fst, hresult]
    rfl
  | linear hsymbol hnonlinear =>
    have haccepts := accepts_iff_resolved hsymbol hnonlinear
      (c.preferences.override request).parseCompound
    rw [settle_fst, resolve_eq_resolved hc.valid _ hnonlinear]
    rcases hresolved : c.registry.resolved (c.preferences.override request).parseCompound unit with
      e | multiplier
    · obtain ⟨cause, rfl⟩ := exists_unit_of_resolved_eq_error hc.onlyDoubles hresolved
      have hrefused := mt haccepts.1 (by simp [hresolved])
      rcases hloud : (c.preferences.override request).failLoud with _ | _
      · exact ⟨.ok .nan, .silent hrefused rfl, rfl⟩
      · exact ⟨.error (.unit cause), .refused hrefused rfl cause, rfl⟩
    · have husable := Step.isUsable_operand_step (isUsable_of_resolved_eq_ok hc.valid hresolved)
        direction
      obtain ⟨result, hresult⟩ := Step.exists_run husable (show (Value.ofDouble x).isWhole = false
        from rfl)
      obtain ⟨y, rfl⟩ := Step.isDouble_run hresult
      refine ⟨.ok y, .number (haccepts.2 ⟨multiplier, hresolved⟩) y, ?_⟩
      rw [answerWith, hresult]
      rfl

/-! ### Two units -/

/-- What the first of two conversions leaves of the registry accepts the same units. -/
theorem accepts_after_iff (hc : Settings.WellBuilt c.registry) (value : Value) (source : RawText)
    (unit : RawText) :
    let after := (c.convertBy .toInternal { failLoud := some true } value (some source)).2
    after.registry.Accepts c.preferences.parseCompound unit ↔
      c.registry.Accepts c.preferences.parseCompound unit := by
  intro after
  rcases hparse : c.preferences.parseCompound with _ | _
  · have hoff : (c.preferences.override { failLoud := some true }).parseCompound = false := hparse
    rw [show after.registry = c.registry from
      registry_convertBy_of_not_parse hoff .toInternal value (some source)]
  · have hused := c.used_convertBy .toInternal { failLoud := some true } value (some source)
    exact (extends_of_grows hused.growsBy.grows).accepts_iff hc.onlyDoubles unit

theorem answered_convertLoudly (hc : Settings.WellBuilt c.registry) (x : Double)
    (source target : RawText) :
    ∃ answer, Answered (c.registry.Accepts c.preferences.parseCompound source ∧
        c.registry.Accepts c.preferences.parseCompound target) true answer ∧
      (c.convertLoudly (.ofDouble x) (some source) (some target)).1 =
        answer.map Value.ofDouble := by
  obtain ⟨first, hfirst, hfirsteq⟩ :=
    answered_convertBy hc .toInternal { failLoud := some true } x source
  have haccepts := accepts_after_iff hc (.ofDouble x) source target
  have hused := c.used_convertBy .toInternal { failLoud := some true } (.ofDouble x) (some source)
  have hrelay := c.relay (.ofDouble x) (some source) (some target)
  generalize c.convertLoudly (.ofDouble x) (some source) (some target) = result at hrelay ⊢
  cases hrelay with
  | stopped heq =>
    rw [heq] at hfirsteq
    cases hfirst with
    | number _ y => exact absurd hfirsteq (by simp [Except.map])
    | silent _ hloud => exact absurd hloud (by simp [Preferences.override])
    | refused hsource _ cause =>
      obtain rfl := Except.error.inj hfirsteq
      exact ⟨.error (.unit cause), .refused (mt And.left hsource) rfl cause, rfl⟩
  | @passed internal after heq =>
    rw [heq] at hfirsteq hused haccepts
    cases hfirst with
    | silent _ hloud => exact absurd hloud (by simp [Preferences.override])
    | refused _ _ cause => exact absurd hfirsteq (by simp [Except.map])
    | number hsource y =>
      obtain rfl := Except.ok.inj hfirsteq
      obtain ⟨second, hsecond, hsecondeq⟩ := answered_convertBy (hc.grows hused.growsBy.grows)
        .fromInternal { failLoud := some true } y target
      rw [hused.preferences_eq] at hsecond
      exact ⟨second, hsecond.congr (haccepts.trans (and_iff_right hsource).symm), hsecondeq⟩

/-- **A conversion between two units follows from both being accepted.** -/
theorem answered_convert (hc : Settings.WellBuilt c.registry) (x : Double) {source target : RawText}
    (hne : source ≠ target) :
    ∃ answer, Answered (c.registry.Accepts c.preferences.parseCompound source ∧
        c.registry.Accepts c.preferences.parseCompound target) c.preferences.failLoud answer ∧
      (c.convert none (.ofDouble x) (some source) (some target)).1 =
        answer.map Value.ofDouble := by
  obtain ⟨answer, hanswer, heq⟩ := answered_convertLoudly hc x source target
  have hexchange := c.exchange none (.ofDouble x) (some source) (some target)
  generalize c.convert none (.ofDouble x) (some source) (some target) = result at hexchange ⊢
  cases hexchange with
  | same hsame => exact absurd (Option.some.inj hsame) hne
  | settled _ hloudly hunit =>
    rw [hloudly] at heq
    cases hanswer with
    | number haccepted y => exact ⟨.ok y, .number haccepted y, heq⟩
    | silent _ hloud => exact absurd hloud (by simp)
    | refused _ _ cause => exact absurd heq (hunit cause)
  | @refused cause after _ hloudly =>
    rw [hloudly] at heq
    cases hanswer with
    | number _ y => exact absurd heq (by simp [Except.map])
    | silent _ hloud => exact absurd hloud (by simp)
    | refused hrefused _ _ =>
      rcases hloud : c.preferences.failLoud with _ | _
      · exact ⟨.ok .nan, .silent hrefused rfl, rfl⟩
      · exact ⟨.error (.unit (.between (some source) (some target) cause)),
          .refused hrefused rfl _, rfl⟩

/-! ### Asking -/

/-- A finite number in an accepted unit is a number in internal units. -/
theorem not_isNaN_of_convertBy (hc : Settings.WellBuilt c.registry) {x y : Double}
    (hx : x.isFinite = true)
    (hsteps : ∀ (symbol : RawText) (unit : NonlinearUnit),
      c.registry.nonlinear? symbol = some unit →
        ∀ y, unit.toInternal.run (.ofDouble x) = .ok (.ofDouble y) → y.isNaN = false)
    {request : Request} {unit : RawText}
    (haccepts : c.registry.Accepts (c.preferences.override request).parseCompound unit)
    (h : (c.convertBy .toInternal request (.ofDouble x) (some unit)).1 = .ok (.ofDouble y)) :
    y.isNaN = false := by
  have hconversion := c.conversion .toInternal request (.ofDouble x) (some unit)
  generalize c.convertBy .toInternal request (.ofDouble x) (some unit) = result at hconversion h
  cases hconversion with
  | idle hunit =>
    obtain rfl : x = y := by simpa [Value.ofDouble] using h
    exact Double.not_isNaN_of_isFinite hx
  | nonlinear hsymbol hnonlinear =>
    rw [finish_fst] at h
    exact hsteps _ _ hnonlinear y (ok_of_mapError_eq_ok h)
  | linear hsymbol hnonlinear =>
    obtain ⟨multiplier, hresolved⟩ := (accepts_iff_resolved hsymbol hnonlinear _).1 haccepts
    obtain ⟨m, rfl⟩ := isDouble_of_resolved_eq_ok hc.onlyDoubles hresolved
    have husable := isUsable_of_resolved_eq_ok hc.valid hresolved
    rw [settle_fst, resolve_eq_resolved hc.valid _ hnonlinear, hresolved] at h
    have hproduct : Except.ok (Value.ofDouble (x * m)) = Except.ok (ε := Failure) (.ofDouble y) := h
    obtain rfl : x * m = y := by simpa [Value.ofDouble] using hproduct
    exact Double.not_isNaN_mul (Double.not_isNaN_of_isFinite hx) husable

/-- Asked about a unit, a converter tells whether it accepts the unit. -/
theorem exists_accepts_eq (hc : Settings.WellBuilt c.registry)
    (hsteps : ∀ (symbol : RawText) (unit : NonlinearUnit),
      c.registry.nonlinear? symbol = some unit →
        ∀ y, unit.toInternal.run (.ofDouble 1) = .ok (.ofDouble y) → y.isNaN = false)
    (parseCompound : Option Bool) (unit : RawText) :
    ∃ accepted, (c.accepts parseCompound (some unit)).1 = .ok accepted ∧
      (accepted = true ↔
        c.registry.Accepts (parseCompound.getD c.preferences.parseCompound) unit) := by
  obtain ⟨answer, hanswer, heq⟩ :=
    answered_convertBy hc .toInternal { parseCompound, failLoud := some false } 1 unit
  have hasked : (c.accepts parseCompound (some unit)).1 =
      (answer.map Value.ofDouble).map (!isNaN ·) := by
    rw [accepts_eq, ← heq]
    rfl
  rw [hasked]
  cases hanswer with
  | number haccepts y =>
    refine ⟨!isNaN (.ofDouble y), rfl, iff_of_true ?_ haccepts⟩
    rw [Bool.not_eq_true']
    exact not_isNaN_of_convertBy hc Double.isFinite_one hsteps haccepts heq
  | silent hrefused => exact ⟨false, rfl, iff_of_false (by simp) hrefused⟩
  | refused _ hloud => exact absurd hloud (by simp [Preferences.override])

/-- The converter that settings ask for tells whether it accepts a unit. -/
theorem exists_accepts_eq_of_buildRegistry {s : Settings} {r : Registry}
    (h : s.buildRegistry none = .ok r) (p : Preferences) (parseCompound : Option Bool)
    (unit : RawText) :
    ∃ accepted, (({ registry := r, preferences := p } : Converter).accepts parseCompound
        (some unit)).1 = .ok accepted ∧
      (accepted = true ↔ r.Accepts (parseCompound.getD p.parseCompound) unit) := by
  refine exists_accepts_eq (c := { registry := r, preferences := p })
    (Settings.wellBuilt_of_buildRegistry h) (fun symbol unit hunit y hy ↦ ?_) parseCompound unit
  -- the nonlinear units are the built-in ones
  rw [nonlinear?, Settings.nonlinear_of_buildRegistry h, Option.getD_none] at hunit
  exact (isStepwise_builtIn hunit).takesDoubles.not_isNaN hy

end Converter

end Metrology
