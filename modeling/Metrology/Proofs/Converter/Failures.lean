import Mathlib.Algebra.Group.Int.Defs
import Metrology.Proofs.Converter.Steps

/-!
# What a call can fail with

A unit that cannot be resolved is a failure of its own kind, and a quiet call turns it into
not-a-number. Over a valid registry one other failure can come out of a call:

* an expression has a value that can be used, or it cannot be resolved because of one of its parts,
  or it **overflows**: a product of whole numbers in it (`Derivation.IsHugeProduct`) is too large to
  be told finite (`failure_of_evaluate`). For that a whole number has to be registered, as products
  of doubles are doubles;
* memoizing a value never fails, because only units that are not nonlinear are resolved;
* by a usable multiplier every value that is no whole number can be converted (`Step.exists_run`).

So a call ends in an answer, or, if it is loud, in the failure to resolve a unit, or in the overflow
of one of its expressions (`Contained`). The nonlinear units are taken to convert every value.
-/

namespace Metrology

open Expression

/-! ### Expressions -/

/-- An expression cannot be resolved, because of one of its parts. -/
def Failure.IsUnresolved (expression : RawText) (e : Failure) : Prop :=
  ∃ fault part, e = .unit (.unresolved fault part expression)

theorem eq_error_of_bind_eq_error {α β ε : Type} {f : α → Except ε β} {x : Except ε α} {e : ε}
    (h : x >>= f = .error e) : x = .error e ∨ ∃ a, x = .ok a ∧ f a = .error e := by
  rcases x with e' | a
  · exact Or.inl (congrArg Except.error (Except.error.inj h))
  · exact Or.inr ⟨a, rfl, h⟩

theorem error_of_map_eq_error {α β ε : Type} {f : α → β} {x : Except ε α} {e : ε}
    (h : x.map f = .error e) : x = .error e := by
  rcases x with e' | a
  · exact congrArg Except.error (Except.error.inj h)
  · exact absurd h (by simp [Except.map])

variable {r : Registry} {expression : RawText}

theorem failure_of_operate {operator : Operator} {part : List CodePoint} {x y : Scalar}
    {e : Failure}
    (h : operate expression operator part x y = .error e) :
    e.IsUnresolved expression ∨ e = .number .overflow ∧ operator = .product ∧
      ∃ j k : Int, x = .int j ∧ y = .int k ∧ (Double.ofInt (j * k)).isFinite = false := by
  rw [operate] at h
  split at h
  · exact Or.inl ⟨_, _, (Except.error.inj h).symm⟩
  · next n hn =>
    split at h
    · exact absurd h (by simp)
    · next hinfinite =>
      obtain ⟨hproduct, j, k, hx, hy, rfl⟩ := apply?_eq_some_int hn
      exact Or.inr ⟨(Except.error.inj h).symm, hproduct, j, k, hx, hy, by simpa using hinfinite⟩
  · split at h
    · exact absurd h (by simp)
    · exact Or.inl ⟨_, _, (Except.error.inj h).symm⟩

theorem isUnresolved_of_operand {part : List CodePoint} {e : Failure}
    (h : operand r expression part = .error e) : e.IsUnresolved expression := by
  rw [operand] at h
  split at h
  · exact ⟨_, _, (Except.error.inj h).symm⟩
  · rcases hleaf : leaf r expression part with cause | multiplier
    · obtain rfl : Failure.unit cause = e := by
        rw [hleaf] at h
        exact Except.error.inj h
      have hcause : ∃ fault text, cause = .unresolved fault text expression := by
        rw [leaf] at hleaf
        split at hleaf
        · exact absurd hleaf (by simp)
        · split at hleaf
          · exact absurd hleaf (by simp)
          · exact ⟨_, _, (Except.error.inj hleaf).symm⟩
        · split at hleaf <;> exact ⟨_, _, (Except.error.inj hleaf).symm⟩
      obtain ⟨fault, text, rfl⟩ := hcause
      exact ⟨fault, text, rfl⟩
    · rw [hleaf] at h
      exact absurd h (by simp [Except.mapError])

/-- The phrase is a product of two whole numbers that is too large for a double. -/
def Derivation.IsHugeProduct (r : Registry) (expression : RawText) :
    {operators : List Operator} → Derivation operators → Prop
  | .product :: _, split left right =>
    ∃ j k : Int, left.outcome r expression = .ok (.int j) ∧
      right.outcome r expression = .ok (.int k) ∧ (Double.ofInt (j * k)).isFinite = false
  | _, _ => False

theorem Derivation.failure_of_outcome {operators : List Operator} (d : Derivation operators)
    {e : Failure} (h : d.outcome r expression = .error e) :
    e.IsUnresolved expression ∨
      e = .number .overflow ∧ ∃ node ∈ d.nodes, node.2.IsHugeProduct r expression := by
  induction d with
  | tighter phrase ih => exact ih h
  | split left right ihleft ihright =>
    rw [outcome_split] at h
    simp only [nodes, List.mem_append, List.mem_singleton]
    rcases eq_error_of_bind_eq_error h with hleft | ⟨x, hx, h⟩
    · refine (ihleft hleft).imp_right (And.imp_right ?_)
      rintro ⟨node, hnode, hhuge⟩
      exact ⟨node, Or.inl (Or.inl hnode), hhuge⟩
    · rcases eq_error_of_bind_eq_error h with hright | ⟨y, hy, h⟩
      · refine (ihright hright).imp_right (And.imp_right ?_)
        rintro ⟨node, hnode, hhuge⟩
        exact ⟨node, Or.inl (Or.inr hnode), hhuge⟩
      · refine (failure_of_operate h).imp_right (And.imp_right ?_)
        rintro ⟨rfl, j, k, rfl, rfl, hinfinite⟩
        exact ⟨⟨_, split left right⟩, Or.inr rfl, j, k, hx, hy, hinfinite⟩
  | group inside ih =>
    refine (ih h).imp_right (And.imp_right ?_)
    rintro ⟨node, hnode, hhuge⟩
    exact ⟨node, List.mem_append_left _ hnode, hhuge⟩
  | leaf text isLeaf => exact Or.inl (isUnresolved_of_operand h)

/-- The expression overflows. -/
def Registry.Overflows (r : Registry) (expression : RawText) : Prop :=
  evaluate r expression = .error (.number .overflow)

/-- A product of whole numbers in the expression is too large for a double. -/
def Registry.HasHugeProduct (r : Registry) (expression : RawText) : Prop :=
  ∃ d : Derivation Operator.byLooseness, d.text = expression.points ∧
    ∃ node ∈ d.nodes, node.2.IsHugeProduct r expression

/-- An expression without a value cannot be resolved, or it overflows in a product of whole
numbers. -/
theorem failure_of_evaluate {e : Failure} (h : evaluate r expression = .error e) :
    e.IsUnresolved expression ∨ e = .number .overflow ∧ r.HasHugeProduct expression := by
  rcases hbalanced : Parts.balanced expression.points with _ | _
  · rw [evaluate_of_not_balanced hbalanced] at h
    exact Or.inl ⟨_, _, (Except.error.inj h).symm⟩
  · obtain ⟨d, hd, -⟩ := Derivation.balanced_iff_existsUnique_derivation.1 hbalanced
    rcases Derivation.evaluate_text hd with hresult | ⟨-, hdeep⟩
    · rw [hresult, Derivation.result] at h
      rcases eq_error_of_bind_eq_error h with houtcome | ⟨multiplier, -, hzero⟩
      · exact (d.failure_of_outcome houtcome).imp_right (And.imp_right fun hhuge ↦ ⟨d, hd, hhuge⟩)
      · split at hzero
        · exact Or.inl ⟨_, _, (Except.error.inj hzero).symm⟩
        · exact absurd hzero (by simp)
    · rw [hdeep] at h
      exact Or.inl ⟨_, _, (Except.error.inj h).symm⟩

theorem Registry.Overflows.hasHugeProduct (h : r.Overflows expression) :
    r.HasHugeProduct expression := by
  rcases failure_of_evaluate h with ⟨fault, part, hunit⟩ | ⟨-, hhuge⟩
  · exact absurd hunit (by simp)
  · exact hhuge

/-- Where only doubles are registered no phrase is a whole number. -/
theorem Registry.OnlyDoubles.not_isHugeProduct (h : r.OnlyDoubles) {operators : List Operator}
    (d : Derivation operators) : ¬d.IsHugeProduct r expression := by
  unfold Derivation.IsHugeProduct
  split
  · next left right =>
    rintro ⟨j, k, hj, -⟩
    obtain ⟨x, hx⟩ := h.outcome left hj
    exact nomatch hx
  · exact not_false

theorem Registry.OnlyDoubles.not_overflows (h : r.OnlyDoubles) (expression : RawText) :
    ¬r.Overflows expression := by
  intro hoverflows
  obtain ⟨d, -, node, -, hhuge⟩ := hoverflows.hasHugeProduct
  exact h.not_isHugeProduct node.2 hhuge

/-! ### Arithmetic -/

/-- A failure of arithmetic is no failure to resolve a unit. -/
theorem mapError_number_ne_unit {α : Type} (result : Except NumberError α) (cause : UnitError) :
    result.mapError Failure.number ≠ .error (.unit cause) := by
  rcases result with e | a <;> simp [Except.mapError]

namespace Step

theorem isUsable_operand_step {multiplier : Scalar} (h : multiplier.isUsable = true)
    (direction : Direction) : (direction.step multiplier).operand.isUsable = true := by
  rwa [operand_step]

/-- By a finite number that is not zero, a step can be done on every value that is no whole number.
-/
theorem exists_run {step : Step} {value : Value} (hstep : step.operand.isUsable = true)
    (hvalue : value.isWhole = false) : ∃ result, step.run value = .ok result := by
  obtain ⟨y, hy, husable⟩ := Scalar.exists_toDouble_of_isUsable hstep
  cases value with
  | number x =>
    cases x with
    | int n => exact absurd hvalue (by simp [Value.isWhole])
    | double x =>
      have hzero : y.isZero = false := Bool.not_eq_true' _ ▸ (Bool.and_eq_true_iff.1 husable).2
      exact ⟨_, run_ofDouble x hy hzero⟩
  | array grid => exact ⟨_, by rw [run, hy]; rfl⟩
  | cell x => exact ⟨_, by rw [run, hy]; rfl⟩

end Step

theorem exists_runSteps {steps : List Step} {value : Value}
    (hsteps : ∀ step ∈ steps, step.operand.isUsable = true) (hvalue : value.isWhole = false) :
    ∃ result, runSteps steps value = .ok result := by
  induction steps generalizing value with
  | nil => exact ⟨value, rfl⟩
  | cons step steps ih =>
    obtain ⟨hstep, hrest⟩ := List.forall_mem_cons.1 hsteps
    obtain ⟨next, hnext⟩ := Step.exists_run hstep hvalue
    obtain ⟨result, hresult⟩ := ih hrest (Step.isWhole_run hvalue hnext)
    refine ⟨result, ?_⟩
    rw [runSteps, List.foldlM_cons, hnext]
    exact hresult

/-- The unit converts every value that is no whole number, either way. -/
def NonlinearUnit.IsTotal (unit : NonlinearUnit) : Prop :=
  ∀ (direction : Direction) (value : Value), value.isWhole = false →
    ∃ result, (direction.map unit).run value = .ok result

theorem NonlinearUnit.IsStepwise.isTotal {unit : NonlinearUnit} (h : unit.IsStepwise) :
    unit.IsTotal := by
  intro direction value hvalue
  obtain ⟨steps, hmap, husable⟩ := h direction
  rw [hmap]
  exact exists_runSteps husable hvalue

/-- All nonlinear units are total. -/
def Registry.NonlinearTotal (r : Registry) : Prop :=
  ∀ (symbol : RawText) (unit : NonlinearUnit), r.nonlinear? symbol = some unit → unit.IsTotal

theorem Registry.NonlinearTotal.congr {r r' : Registry} (h : r.NonlinearTotal)
    (hnonlinear : r'.nonlinear = r.nonlinear) : r'.NonlinearTotal := by
  intro symbol unit hunit
  rw [nonlinear?, hnonlinear] at hunit
  exact h symbol unit hunit

/-! ### Results of calls -/

/-- A result is an answer, or the failure to resolve a unit, if such failures are loud, or one of
the units overflows. -/
inductive Contained {α : Type} (r : Registry) (units : List (Option RawText)) (loud : Bool) :
    Except Failure α → Prop where
  | answer (a : α) : Contained r units loud (.ok a)
  | refused (hloud : loud = true) (cause : UnitError) :
      Contained r units loud (.error (.unit cause))
  | overflow {unit : Option RawText} (hunit : unit ∈ units)
      (hoverflows : r.Overflows (unit.getD "")) :
      Contained r units loud (.error (.number .overflow))

namespace Contained

variable {α β : Type} {units : List (Option RawText)} {loud : Bool}

theorem map {result : Except Failure α} (h : Contained r units loud result) (f : α → β) :
    Contained r units loud (result.map f) := by
  cases h with
  | answer a => exact .answer (f a)
  | refused hloud cause => exact .refused hloud cause
  | overflow hunit hoverflows => exact .overflow hunit hoverflows

theorem mono {units' : List (Option RawText)} {result : Except Failure α}
    (h : Contained r units loud result) (hsubset : units ⊆ units') :
    Contained r units' loud result := by
  cases h with
  | answer a => exact .answer a
  | refused hloud cause => exact .refused hloud cause
  | overflow hunit hoverflows => exact .overflow (hsubset hunit) hoverflows

/-- The mode makes no difference where every unit is resolved. -/
theorem of_ne_unit {loud' : Bool} {result : Except Failure α} (h : Contained r units loud result)
    (hne : ∀ cause, result ≠ .error (.unit cause)) : Contained r units loud' result := by
  cases h with
  | answer a => exact .answer a
  | refused _ cause => exact absurd rfl (hne cause)
  | overflow hunit hoverflows => exact .overflow hunit hoverflows

/-- Memoized entries overflow nothing. -/
theorem of_extends {r' : Registry} {result : Except Failure α} (hextends : Registry.Extends r r')
    (h : Contained r' units loud result) : Contained r units loud result := by
  cases h with
  | answer a => exact .answer a
  | refused hloud cause => exact .refused hloud cause
  | overflow hunit hoverflows =>
    exact .overflow hunit ((hextends.evaluate_eq _).symm.trans hoverflows)

end Contained

namespace Converter

variable {c : Converter} {p : Preferences} {unit : Option RawText} {direction : Direction}
  {request : Request} {value : Value}

theorem contained_resolve (hvalid : c.registry.Valid) (p : Preferences)
    (hnonlinear : unit.bind c.registry.nonlinear? = none) :
    Contained c.registry [unit] true (c.resolve p unit).1 := by
  rcases h : c.resolve p unit with ⟨answer, after⟩
  have hresolution := h ▸ resolution c p unit
  cases hresolution with
  | registered | parsed | memoized => exact .answer _
  | unknown => exact .refused rfl _
  | failed _ _ hvalue =>
    rcases failure_of_evaluate hvalue with ⟨fault, part, rfl⟩ | ⟨rfl, -⟩
    · exact .refused rfl _
    · exact .overflow (List.mem_singleton_self unit) hvalue
  | refused _ _ hvalue _ hinsert =>
    obtain ⟨registry, hok⟩ := hvalid.exists_insertScalar hvalue hnonlinear
    exact absurd (hinsert.symm.trans hok) (by simp)

/-- What a unit is resolved to can be used. -/
theorem isUsable_of_resolve_eq_ok (hvalid : c.registry.Valid) {multiplier : Scalar}
    (h : (c.resolve p unit).1 = .ok multiplier) : multiplier.isUsable = true := by
  rcases houtcome : c.resolve p unit with ⟨answer, after⟩
  have hresolution := houtcome ▸ resolution c p unit
  rw [houtcome] at h
  cases hresolution with
  | registered hlinear => exact hvalid.usable (Except.ok.inj h ▸ hlinear)
  | parsed _ _ hvalue _ | memoized _ _ hvalue _ _ =>
    exact isUsable_of_evaluate_eq_ok hvalid (Except.ok.inj h ▸ hvalue)
  | unknown | failed | refused => exact absurd h (by simp)

theorem contained_convertBy (hvalid : c.registry.Valid) (htotal : c.registry.NonlinearTotal)
    (hvalue : value.isWhole = false) (direction : Direction) (request : Request)
    (unit : Option RawText) :
    Contained c.registry [unit] (c.preferences.override request).failLoud
      (c.convertBy direction request value unit).1 := by
  have hconversion := conversion c direction request value unit
  generalize c.convertBy direction request value unit = result at hconversion ⊢
  cases hconversion with
  | idle _ => exact .answer _
  | nonlinear _ hnonlinear =>
    obtain ⟨result, hresult⟩ := htotal _ _ hnonlinear direction value hvalue
    rw [finish_fst, hresult]
    exact .answer result
  | @linear symbol _ hnonlinear =>
    have hcontained := contained_resolve hvalid (c.preferences.override request)
      (show (some symbol).bind c.registry.nonlinear? = none from hnonlinear)
    have husable : ∀ multiplier, (c.resolve (c.preferences.override request) (some symbol)).1 =
        .ok multiplier → multiplier.isUsable = true :=
      fun multiplier ↦ isUsable_of_resolve_eq_ok hvalid
    rw [settle_fst]
    generalize (c.resolve (c.preferences.override request) (some symbol)).1 = outcome
      at hcontained husable ⊢
    cases hcontained with
    | answer multiplier =>
      obtain ⟨result, hresult⟩ := Step.exists_run
        (Step.isUsable_operand_step (husable _ rfl) direction) hvalue
      rw [Registry.answerWith, hresult]
      exact .answer result
    | refused _ cause =>
      rw [Registry.answerWith]
      rcases hloud : (c.preferences.override request).failLoud with _ | _
      · exact .answer value.nanLike
      · exact .refused rfl cause
    | overflow hunit hoverflows => exact .overflow hunit hoverflows

theorem isWhole_of_convertBy_eq_ok (hvalue : value.isWhole = false) {result : Value}
    (h : (c.convertBy direction request value unit).1 = .ok result) : result.isWhole = false := by
  have hconversion := conversion c direction request value unit
  generalize c.convertBy direction request value unit = outcome at hconversion h
  cases hconversion with
  | idle _ => exact Except.ok.inj h ▸ hvalue
  | nonlinear _ _ =>
    rw [finish_fst] at h
    exact (direction.map _).isWhole_run hvalue (ok_of_mapError_eq_ok h)
  | linear _ _ =>
    rw [settle_fst] at h
    exact Registry.isWhole_of_answerWith_eq_ok hvalue h

theorem contained_convertLoudly (hvalid : c.registry.Valid) (htotal : c.registry.NonlinearTotal)
    (hvalue : value.isWhole = false) (source target : Option RawText) :
    Contained c.registry [source, target] true (c.convertLoudly value source target).1 := by
  have hcontained := (contained_convertBy hvalid htotal hvalue .toInternal
    { failLoud := some true } source).mono (List.subset_append_left [source] [target])
  have hused := c.used_convertBy .toInternal { failLoud := some true } value source
  have hrelay := c.relay value source target
  generalize c.convertLoudly value source target = result at hrelay ⊢
  cases hrelay with
  | stopped hfirst =>
    rw [hfirst] at hcontained
    cases hcontained with
    | refused _ cause => exact .refused rfl cause
    | overflow hunit hoverflows => exact .overflow hunit hoverflows
  | @passed internal after hfirst =>
    -- the second conversion is done over what the first one has left of the registry
    rw [hfirst] at hused
    have hgrows := hused.growsBy.grows
    have hextends := Registry.extends_of_grows hgrows
    have htotal' : after.registry.NonlinearTotal := htotal.congr hextends.nonlinear_eq
    have hwhole : internal.isWhole = false :=
      isWhole_of_convertBy_eq_ok hvalue (congrArg Prod.fst hfirst)
    have hsecond := contained_convertBy (hvalid.grows hgrows) htotal' hwhole .fromInternal
      { failLoud := some true } target
    exact (hsecond.mono (List.subset_append_right [source] [target])).of_extends hextends

theorem contained_convert (hvalid : c.registry.Valid) (htotal : c.registry.NonlinearTotal)
    (hvalue : value.isWhole = false) (failLoud : Option Bool) (source target : Option RawText) :
    Contained c.registry [source, target] (failLoud.getD c.preferences.failLoud)
      (c.convert failLoud value source target).1 := by
  have hcontained := contained_convertLoudly hvalid htotal hvalue source target
  have hexchange := c.exchange failLoud value source target
  generalize c.convert failLoud value source target = result at hexchange ⊢
  cases hexchange with
  | same _ => exact .answer value
  | settled _ hloudly hunit =>
    rw [hloudly] at hcontained
    exact hcontained.of_ne_unit hunit
  | refused _ _ =>
    rcases failLoud.getD c.preferences.failLoud with _ | _
    · exact .answer value.nanLike
    · exact .refused rfl _

theorem contained_accepts (hvalid : c.registry.Valid) (htotal : c.registry.NonlinearTotal)
    (parseCompound : Option Bool) (unit : Option RawText) :
    Contained c.registry [unit] false (c.accepts parseCompound unit).1 := by
  have hvalue : (Value.ofDouble 1).isWhole = false := rfl
  rw [accepts_eq]
  exact (contained_convertBy hvalid htotal hvalue .toInternal
    { parseCompound, failLoud := some false } unit).map _

theorem contained_multiplier (hvalid : c.registry.Valid) (request : Request)
    (unit : Option RawText) : Contained c.registry [unit] true (c.multiplier request unit).1 := by
  rw [multiplier]
  split
  · exact .refused rfl _
  · next hnonlinear => exact contained_resolve hvalid _ hnonlinear

end Converter

namespace Call

/-- The call converts a whole number. -/
def convertsWhole : Call → Bool
  | single _ _ value _ | between _ value _ _ => value.isWhole
  | accepts _ _ | multiplier _ _ => false

/-- A unit that cannot be resolved is a failure of the call. -/
def isLoud (p : Preferences) : Call → Bool
  | single _ request _ _ => (p.override request).failLoud
  | between failLoud _ _ _ => failLoud.getD p.failLoud
  | accepts _ _ => false
  | multiplier _ _ => true

theorem contained_run {c : Converter} (hvalid : c.registry.Valid)
    (htotal : c.registry.NonlinearTotal) {call : Call} (hcall : call.convertsWhole = false) :
    Contained c.registry call.units (call.isLoud c.preferences) (call.run c).1 := by
  cases call with
  | single direction request value unit =>
    exact (Converter.contained_convertBy hvalid htotal hcall direction request unit).map _
  | between failLoud value source target =>
    exact (Converter.contained_convert hvalid htotal hcall failLoud source target).map _
  | accepts parseCompound unit =>
    exact (Converter.contained_accepts hvalid htotal parseCompound unit).map _
  | multiplier request unit => exact (Converter.contained_multiplier hvalid request unit).map _

end Call

/-! ### All that can go wrong -/

theorem contained_expressionMultiplier (loud : Bool) :
    Contained r [some expression] loud (Expression.multiplier r expression loud) := by
  rw [Expression.multiplier]
  rcases h : evaluate r expression with e | multiplier
  · rcases failure_of_evaluate h with ⟨fault, part, rfl⟩ | ⟨rfl, -⟩
    · cases loud with
      | false => exact .answer (Scalar.double .nan)
      | true => exact .refused rfl _
    · exact .overflow (List.mem_singleton_self _) h
  · exact .answer multiplier

/-- **Nothing but refusals and overflows.** Over a valid registry with total nonlinear units, an
expression has a finite value that is not zero, or cannot be resolved because of one of its parts,
or overflows; its value can always be memoized; and a call that converts no whole number ends in an
answer, in the failure to resolve a unit, if it is loud, or in the overflow of one of its units.
What overflows is a product of whole numbers, and so nothing does where only doubles are
registered. -/
theorem Converter.failures_contained {c : Converter} (hvalid : c.registry.Valid)
    (htotal : c.registry.NonlinearTotal) :
    (∀ expression, (∃ multiplier x, evaluate c.registry expression = .ok multiplier ∧
        multiplier.isZero = false ∧ multiplier.toDouble = .ok x ∧ x.isFinite = true) ∨
      (∃ fault part,
        evaluate c.registry expression = .error (.unit (.unresolved fault part expression))) ∨
      c.registry.Overflows expression) ∧
    (∀ unit multiplier, c.registry.nonlinear? unit = none →
      evaluate c.registry unit = .ok multiplier →
        ∃ registry, c.registry.insertScalar unit multiplier = .ok registry) ∧
    (∀ call : Call, call.convertsWhole = false →
      Contained c.registry call.units (call.isLoud c.preferences) (call.run c).1) ∧
    (∀ expression loud, Contained c.registry [some expression] loud
      (Expression.multiplier c.registry expression loud)) ∧
    (∀ expression, c.registry.Overflows expression → c.registry.HasHugeProduct expression) ∧
    (c.registry.OnlyDoubles → ∀ expression, ¬c.registry.Overflows expression) := by
  refine ⟨fun expression ↦ ?_, fun unit multiplier hnonlinear hvalue ↦ ?_,
    fun call hcall ↦ Call.contained_run hvalid htotal hcall,
    fun expression loud ↦ contained_expressionMultiplier loud,
    fun expression ↦ Registry.Overflows.hasHugeProduct,
    fun hdoubles ↦ hdoubles.not_overflows⟩
  · rcases h : evaluate c.registry expression with e | multiplier
    · rcases failure_of_evaluate h with ⟨fault, part, rfl⟩ | ⟨rfl, -⟩
      · exact Or.inr (Or.inl ⟨fault, part, rfl⟩)
      · exact Or.inr (Or.inr h)
    · have husable := isUsable_of_evaluate_eq_ok hvalid h
      obtain ⟨x, hx, hfinite⟩ := Scalar.toDouble_of_isUsable husable
      exact Or.inl ⟨multiplier, x, rfl, Scalar.isZero_of_isUsable husable, hx, hfinite⟩
  · exact hvalid.exists_insertScalar hvalue hnonlinear

/-! ### The built-in units, and a whole number that is too large -/

theorem Registry.nonlinearTotal_builtIn : Registry.builtIn.NonlinearTotal := fun _ _ h ↦
  (isStepwise_builtIn h).isTotal

theorem Converter.failures_contained_builtIn :
    (Registry.builtIn.Valid ∧ Registry.builtIn.NonlinearTotal ∧
        (Call.between none (.ofDouble 451) "degF" "furlong").convertsWhole = false) ∧
      Contained Registry.builtIn [some "degF", some "furlong"] true
        ((Call.between none (.ofDouble 451) "degF" "furlong").run
          { registry := Registry.builtIn }).1 := by
  have htotal := Registry.nonlinearTotal_builtIn
  let c : Converter := { registry := Registry.builtIn }
  have hcontained := @failures_contained c Registry.valid_builtIn htotal
  exact ⟨⟨Registry.valid_builtIn, htotal, rfl⟩,
    hcontained.2.2.1 (.between none (.ofDouble 451) "degF" "furlong") rfl⟩

/-- A registry of one unit, whose multiplier is a whole number. -/
def Registry.ofWhole (n : Int) : Registry :=
  if h : (Scalar.int n).isUsable = true then
    (seed [⟨"a", "a", .length, .int n, [], h⟩] []).toOption.getD ∅
  else ∅

theorem Registry.valid_ofWhole (n : Int) : (ofWhole n).Valid := by
  rw [ofWhole]
  split
  · generalize hseed : seed _ _ = result
    rcases result with e | r
    · exact valid_empty
    · exact valid_of_seed hseed
  · exact valid_empty

theorem Registry.nonlinearTotal_of_isEmpty {r : Registry}
    (h : r.nonlinear.entries.isEmpty = true) : r.NonlinearTotal := by
  intro symbol unit hunit
  rw [nonlinear?, SymbolMap.get?, List.isEmpty_iff.1 h] at hunit
  exact absurd hunit (by simp)

/-- The square of a unit of two hundred zeros overflows, and a quiet call fails with it. -/
theorem failureOf_evaluate_huge :
    ((Registry.ofWhole (10 ^ 200)).Valid ∧ (Registry.ofWhole (10 ^ 200)).NonlinearTotal) ∧
      failureOf (evaluate (Registry.ofWhole (10 ^ 200)) "a a") = some (.number .overflow) ∧
      failureOf (Call.run (.single .toInternal { failLoud := some false } (.ofDouble 1) "a a")
        { registry := Registry.ofWhole (10 ^ 200) }).1 = some (.number .overflow) := by
  have htotal : (Registry.ofWhole (10 ^ 200)).NonlinearTotal :=
    Registry.nonlinearTotal_of_isEmpty (by decide +kernel)
  exact ⟨⟨Registry.valid_ofWhole _, htotal⟩, by decide +kernel, by decide +kernel⟩

end Metrology
