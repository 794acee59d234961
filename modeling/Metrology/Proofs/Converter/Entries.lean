import Metrology.Proofs.Converter.Failures

/-!
# What a call adds to the registry

A call writes to the registry in one way: it adds an entry for a unit of its own, at the end, under
the text of the unit, with the double of the value that the expression has in the registry. No entry
is changed or dropped (`Registry.AddsEntry`).

* A call of one unit adds the entry exactly when the registry does not hold the unit, expressions
  are parsed and memoized, and the expression has a value (`Registry.Recalls`).
* A conversion between two units adds at most the entries of both, and when it fails at most that of
  the first. A whole number can overflow when the multiplier of the second unit has been memoized
  already; no other value can.

That the two entries are those of the registry as it was before rests on memoized entries changing
no evaluation.
-/

namespace Metrology

open Expression

/-! ### One more entry -/

namespace SymbolMap

variable {α : Type}

/-- A symbol that is new comes last. -/
theorem entries_insert {m : SymbolMap α} {symbol : RawText} (h : m.get? symbol = none) (value : α) :
    (m.insert symbol value).entries = m.entries ++ [(symbol, value)] :=
  insertEntry_of_notMem (get?_eq_none_iff.1 h) value

end SymbolMap

namespace Registry

variable {r r' : Registry} {p : Preferences} {symbol : RawText}

/-- The multiplier that a unit is memoized with: the double of the value of its expression. -/
def memoOf (r : Registry) (symbol : RawText) : Option Double :=
  (evaluate r symbol).toOption.bind fun value ↦ value.toDouble.toOption

/-- A registry has one linear entry more, at the end, and is the same but for that. -/
structure AddsEntry (r : Registry) (symbol : RawText) (x : Double) (r' : Registry) : Prop where
  linear_eq : r'.linear.entries = r.linear.entries ++ [(symbol, .double x)]
  nonlinear_eq : r'.nonlinear = r.nonlinear

/-- The unit is to be memoized: it is in neither map, expressions are parsed and memoized, and its
expression has a value. -/
def ToMemoize (r : Registry) (p : Preferences) (symbol : RawText) : Prop :=
  r.contains symbol = false ∧ p.parseCompound = true ∧ p.memoize = true ∧
    ∃ value, evaluate r symbol = .ok value

/-- A unit that is to be memoized has been added, and nothing else has changed. -/
structure Recalls (r : Registry) (p : Preferences) (symbol : RawText) (r' : Registry) : Prop where
  added : r.ToMemoize p symbol → ∃ x, r.memoOf symbol = some x ∧ r.AddsEntry symbol x r'
  kept : ¬r.ToMemoize p symbol → r' = r

/-- At most the entry of a unit has been added, with what another registry makes of it. -/
def AddsAtMost (origin r : Registry) (unit : Option RawText) (r' : Registry) : Prop :=
  r' = r ∨ ∃ symbol x, unit = some symbol ∧ r.contains symbol = false ∧
    origin.memoOf symbol = some x ∧ r.AddsEntry symbol x r'

theorem memoOf_of_evaluate {value : Scalar} {x : Double} (hvalue : evaluate r symbol = .ok value)
    (hx : value.toDouble = .ok x) : r.memoOf symbol = some x := by
  rw [memoOf, hvalue]
  show value.toDouble.toOption = some x
  rw [hx]
  rfl

theorem Memoizes.addsEntry (h : Memoizes symbol r r') :
    r.contains symbol = false ∧ ∃ x, r.memoOf symbol = some x ∧ r.AddsEntry symbol x r' := by
  obtain ⟨value, x, hvalue, hx, hlinear, hnonlinear, rfl⟩ := h.exists_insert
  exact ⟨contains_eq_false_iff.2 ⟨hlinear, hnonlinear⟩, x, memoOf_of_evaluate hvalue hx,
    SymbolMap.entries_insert hlinear _, rfl⟩

theorem recalls_of_not_toMemoize (h : ¬r.ToMemoize p symbol) : r.Recalls p symbol r :=
  ⟨fun hmemoize ↦ absurd hmemoize h, fun _ ↦ rfl⟩

theorem recalls_of_memoizes (hmemoize : r.ToMemoize p symbol) (h : Memoizes symbol r r') :
    r.Recalls p symbol r' :=
  ⟨fun _ ↦ h.addsEntry.2, fun hnot ↦ absurd hmemoize hnot⟩

/-- A nonlinear unit is not memoized. -/
theorem not_toMemoize_of_nonlinear {nonlinear : NonlinearUnit}
    (h : r.nonlinear? symbol = some nonlinear) : ¬r.ToMemoize p symbol := by
  rintro ⟨hfree, -⟩
  exact absurd ((contains_eq_false_iff.1 hfree).2.symm.trans h) (by simp)

/-- Of the one unit of a call, if there is one to be resolved, the entry has been added if it was to
be, and nothing else has changed. -/
def RecallsOnly (r : Registry) (p : Preferences) (unit : Option RawText) (r' : Registry) : Prop :=
  match unit with
  | none => r' = r
  | some symbol => r.Recalls p symbol r'

theorem addsAtMost_of_memoizes {unit : Option RawText} {memoize : Bool}
    (h : r' = r ∨ ∃ symbol, unit = some symbol ∧ memoize = true ∧ Memoizes symbol r r') :
    AddsAtMost r r unit r' := by
  rcases h with h | ⟨symbol, rfl, -, hmemoizes⟩
  · exact Or.inl h
  · obtain ⟨hfree, x, hx, hadds⟩ := hmemoizes.addsEntry
    exact Or.inr ⟨symbol, x, rfl, hfree, hx, hadds⟩

/-- What a registry makes of a unit is what it made of it before it grew. -/
theorem AddsAtMost.of_extends {origin : Registry} {unit : Option RawText}
    (hextends : Extends origin r) (h : AddsAtMost r r unit r') : AddsAtMost origin r unit r' := by
  rcases h with h | ⟨symbol, x, rfl, hfree, hx, hadds⟩
  · exact Or.inl h
  · rw [memoOf, hextends.evaluate_eq symbol] at hx
    exact Or.inr ⟨symbol, x, rfl, hfree, hx, hadds⟩

end Registry

namespace Converter

variable {c : Converter} {p : Preferences} {symbol : RawText} {unit : Option RawText}
  {direction : Direction} {request : Request} {value : Value} {e : Failure}

/-! ### Calls of one unit -/

theorem recalls_resolve (hvalid : c.registry.Valid) (p : Preferences)
    (hnonlinear : c.registry.nonlinear? symbol = none) :
    c.registry.Recalls p symbol (c.resolve p (some symbol)).2.registry := by
  rcases h : c.resolve p (some symbol) with ⟨answer, after⟩
  have hresolution := h ▸ resolution c p (some symbol)
  cases hresolution with
  | registered hlinear =>
    refine Registry.recalls_of_not_toMemoize ?_
    rintro ⟨hfree, -⟩
    exact absurd ((Registry.contains_eq_false_iff.1 hfree).1.symm.trans hlinear) (by simp)
  | unknown _ hparse =>
    refine Registry.recalls_of_not_toMemoize ?_
    rintro ⟨-, hon, -⟩
    exact absurd (hon.symm.trans hparse) (by simp)
  | failed _ _ hvalue =>
    refine Registry.recalls_of_not_toMemoize ?_
    rintro ⟨-, -, -, value, hok⟩
    exact absurd (hok.symm.trans hvalue) (by simp)
  | parsed _ _ _ hmemoize =>
    refine Registry.recalls_of_not_toMemoize ?_
    rintro ⟨-, -, hon, -⟩
    exact absurd (hon.symm.trans hmemoize) (by simp)
  | memoized hlinear hparse hvalue hmemoize hinsert =>
    exact Registry.recalls_of_memoizes
      ⟨Registry.contains_eq_false_iff.2 ⟨hlinear, hnonlinear⟩, hparse, hmemoize, _, hvalue⟩
      ⟨hlinear, _, hvalue, hinsert⟩
  | refused _ _ hvalue _ hinsert =>
    obtain ⟨registry, hok⟩ := hvalid.exists_insertScalar hvalue hnonlinear
    exact absurd (hinsert.symm.trans hok) (by simp)

/-- A unit that is not resolved leaves no trace in the registry. -/
theorem registry_resolve_of_error (h : (c.resolve p unit).1 = .error e) :
    (c.resolve p unit).2.registry = c.registry := by
  rcases houtcome : c.resolve p unit with ⟨answer, after⟩
  have hresolution := houtcome ▸ resolution c p unit
  rw [houtcome] at h
  cases hresolution with
  | unknown | failed | refused => rfl
  | registered | parsed | memoized => exact absurd h (by simp)

/-- The unit that is converted by; the empty one is none. -/
def named (unit : Option RawText) : Option RawText := unit.filter fun symbol ↦ symbol ≠ ""

theorem recallsOnly_convertBy (hvalid : c.registry.Valid) (direction : Direction)
    (request : Request) (value : Value) (unit : Option RawText) :
    c.registry.RecallsOnly (c.preferences.override request) (named unit)
      (c.convertBy direction request value unit).2.registry := by
  have hconversion := conversion c direction request value unit
  generalize c.convertBy direction request value unit = result at hconversion ⊢
  cases hconversion with
  | idle hunit => rcases hunit with rfl | rfl <;> rfl
  | nonlinear hsymbol hnonlinear =>
    rw [named, Option.filter_some_pos (by simpa using hsymbol), (finish_snd _ _).1]
    exact Registry.recalls_of_not_toMemoize (Registry.not_toMemoize_of_nonlinear hnonlinear)
  | linear hsymbol hnonlinear =>
    rw [named, Option.filter_some_pos (by simpa using hsymbol), (settle_snd _ _ _ _ _).1]
    exact recalls_resolve hvalid _ hnonlinear

/-- With a multiplier that can be used, a conversion of anything but a whole number does not fail;
of a whole number it fails by its arithmetic at most. -/
theorem exists_error_of_answerWith {loud : Bool} {outcome : Except Failure Scalar}
    (husable : ∀ multiplier, outcome = .ok multiplier → multiplier.isUsable = true)
    (he : value.isWhole = false ∨ ∃ cause, e = .unit cause)
    (h : Registry.answerWith direction loud value outcome = .error e) :
    ∃ e', outcome = .error e' := by
  rcases outcome with e' | multiplier
  · exact ⟨e', rfl⟩
  · rw [Registry.answerWith] at h
    rcases he with hvalue | ⟨cause, rfl⟩
    · obtain ⟨result, hresult⟩ := Step.exists_run
        (Step.isUsable_operand_step (husable _ rfl) direction) hvalue
      rw [hresult] at h
      exact absurd h (by simp [Except.mapError])
    · exact absurd h (mapError_number_ne_unit _ cause)

theorem registry_convertBy_of_error (hvalid : c.registry.Valid)
    (he : value.isWhole = false ∨ ∃ cause, e = .unit cause)
    (h : (c.convertBy direction request value unit).1 = .error e) :
    (c.convertBy direction request value unit).2.registry = c.registry := by
  have hconversion := conversion c direction request value unit
  generalize c.convertBy direction request value unit = result at hconversion h ⊢
  cases hconversion with
  | idle _ => rfl
  | nonlinear _ _ => exact (finish_snd _ _).1
  | @linear symbol _ _ =>
    rw [settle_fst] at h
    obtain ⟨e', he'⟩ := exists_error_of_answerWith
      (fun _ hok ↦ isUsable_of_resolve_eq_ok hvalid hok) he h
    rw [(settle_snd _ _ _ _ _).1]
    exact registry_resolve_of_error he'

theorem recallsOnly_multiplier (hvalid : c.registry.Valid) (request : Request)
    (unit : Option RawText) :
    c.registry.RecallsOnly (c.preferences.override request) unit
      (c.multiplier request unit).2.registry := by
  rcases unit with _ | symbol
  · -- without a unit there is the empty expression, which has no value
    rcases (c.used_multiplier request none).growsBy.cases_head with heq | ⟨_, ⟨symbol, hmem, -⟩, -⟩
    · exact heq.symm
    · exact absurd hmem (by simp)
  · rw [multiplier]
    rcases hnonlinear : (some symbol).bind c.registry.nonlinear? with _ | nonlinear
    · exact recalls_resolve hvalid _ hnonlinear
    · exact Registry.recalls_of_not_toMemoize (Registry.not_toMemoize_of_nonlinear hnonlinear)

theorem registry_multiplier_of_error (h : (c.multiplier request unit).1 = .error e) :
    (c.multiplier request unit).2.registry = c.registry := by
  rw [multiplier] at h ⊢
  split at h
  · rfl
  · exact registry_resolve_of_error h

/-! ### Conversions between two units -/

theorem addsAtMost_convertBy (c : Converter) (direction : Direction) (request : Request)
    (value : Value) (unit : Option RawText) :
    Registry.AddsAtMost c.registry c.registry unit
      (c.convertBy direction request value unit).2.registry :=
  Registry.addsAtMost_of_memoizes (registry_convertBy c direction request value unit)

/-- The first unit may leave its entry, then the second; the second leaves none when it fails. -/
theorem exists_addsAtMost_convertLoudly (hvalid : c.registry.Valid) (value : Value)
    (source target : Option RawText) :
    ∃ middle, Registry.AddsAtMost c.registry c.registry source middle ∧
      Registry.AddsAtMost c.registry middle target
        (c.convertLoudly value source target).2.registry ∧
      ∀ e, (c.convertLoudly value source target).1 = .error e →
        (value.isWhole = false ∨ ∃ cause, e = .unit cause) →
          (c.convertLoudly value source target).2.registry = middle := by
  have hadds := c.addsAtMost_convertBy .toInternal { failLoud := some true } value source
  have hused := c.used_convertBy .toInternal { failLoud := some true } value source
  have hrelay := c.relay value source target
  generalize c.convertLoudly value source target = result at hrelay ⊢
  cases hrelay with
  | @stopped e after hfirst =>
    rw [hfirst] at hadds
    exact ⟨after.registry, hadds, Or.inl rfl, fun _ _ _ ↦ rfl⟩
  | @passed internal after hfirst =>
    rw [hfirst] at hadds hused
    have hgrows := hused.growsBy.grows
    have hsecond := after.addsAtMost_convertBy .fromInternal { failLoud := some true } internal
      target
    refine ⟨after.registry, hadds, hsecond.of_extends (Registry.extends_of_grows hgrows),
      fun e he hcause ↦ ?_⟩
    -- the second unit leaves no entry when it fails, unless by arithmetic on a whole number
    have hwhole : value.isWhole = false → internal.isWhole = false :=
      fun hvalue ↦ isWhole_of_convertBy_eq_ok hvalue (congrArg Prod.fst hfirst)
    exact registry_convertBy_of_error (hvalid.grows hgrows) (hcause.imp_left hwhole) he

/-- The mode makes no difference to what a conversion leaves. -/
theorem convert_snd {source target : Option RawText} (hne : source ≠ target)
    (failLoud : Option Bool) :
    (c.convert failLoud value source target).2 = (c.convertLoudly value source target).2 := by
  have hexchange := c.exchange failLoud value source target
  generalize c.convert failLoud value source target = result at hexchange ⊢
  cases hexchange with
  | same heq => exact absurd heq hne
  | settled _ hloudly | refused _ hloudly => rw [hloudly]

/-- A loud conversion fails as its parts do; only the failure to resolve a unit is told otherwise.
-/
theorem exists_error_of_convert {source target : Option RawText}
    (h : (c.convert (some true) value source target).1 = .error e) :
    ∃ e', (c.convertLoudly value source target).1 = .error e' ∧
      ((∃ cause, e = .unit cause) → ∃ cause, e' = .unit cause) := by
  have hexchange := c.exchange (some true) value source target
  generalize c.convert (some true) value source target = result at hexchange h
  cases hexchange with
  | same _ => exact absurd h (by simp)
  | settled _ hloudly _ => exact ⟨e, hloudly ▸ h, id⟩
  | @refused cause after _ hloudly => exact ⟨.unit cause, by rw [hloudly], fun _ ↦ ⟨cause, rfl⟩⟩

end Converter

/-! ### All calls -/

/-- The unit that a call resolves, of those that it is made with: in a conversion the empty unit is
none. -/
def Call.resolved (call : Call) (unit : Option RawText) : Option RawText :=
  match call with
  | multiplier _ _ => unit
  | _ => Converter.named unit

/-- **Calls extend the registry and do nothing else to it.** A call of one unit adds the entry of
this unit when it is to be memoized, and otherwise leaves the registry as it is, in particular when
it fails to resolve the unit. A conversion between two units adds at most the entries of the two,
and of the first at most when it fails to resolve a unit, or fails at all and is of no whole number.
-/
theorem Converter.registry_extended {c : Converter} (hvalid : c.registry.Valid) :
    (∀ (call : Call) (unit : Option RawText), call.units = [unit] →
      c.registry.RecallsOnly (c.preferences.override call.request) (call.resolved unit)
          (call.run c).2.registry ∧
        ∀ cause, (call.run c).1 = .error (.unit cause) →
          (call.run c).2.registry = c.registry) ∧
    ∀ failLoud value source target,
      ∃ middle, Registry.AddsAtMost c.registry c.registry source middle ∧
        Registry.AddsAtMost c.registry middle target
          (c.convert failLoud value source target).2.registry ∧
        ∀ e, (c.convert (some true) value source target).1 = .error e →
          (value.isWhole = false ∨ ∃ cause, e = .unit cause) →
            (c.convert failLoud value source target).2.registry = middle := by
  refine ⟨fun call unit hunits ↦ ?_, fun failLoud value source target ↦ ?_⟩
  · cases call with
    | single direction request value unit' =>
      obtain rfl : unit' = unit := List.singleton_inj.1 hunits
      refine ⟨recallsOnly_convertBy hvalid direction request value unit', fun cause hcause ↦ ?_⟩
      exact registry_convertBy_of_error hvalid (Or.inr ⟨cause, rfl⟩) (error_of_map_eq_error hcause)
    | between => exact absurd hunits (by simp [Call.units])
    | accepts parseCompound unit' =>
      obtain rfl : unit' = unit := List.singleton_inj.1 hunits
      rw [Call.run, accepts_eq]
      refine ⟨recallsOnly_convertBy hvalid .toInternal _ _ unit', fun cause hcause ↦ ?_⟩
      exact registry_convertBy_of_error hvalid (Or.inr ⟨cause, rfl⟩)
        (error_of_map_eq_error (error_of_map_eq_error hcause))
    | multiplier request unit' =>
      obtain rfl : unit' = unit := List.singleton_inj.1 hunits
      refine ⟨recallsOnly_multiplier hvalid request unit', fun cause hcause ↦ ?_⟩
      exact registry_multiplier_of_error (error_of_map_eq_error hcause)
  · by_cases hne : source = target
    · have hidle : c.convert failLoud value source target = (.ok value, c) := by
        rw [convert, if_pos hne]
      rw [hidle]
      exact ⟨c.registry, Or.inl rfl, Or.inl rfl, fun _ _ _ ↦ rfl⟩
    · obtain ⟨middle, hsource, htarget, hfailed⟩ :=
        exists_addsAtMost_convertLoudly hvalid value source target
      rw [convert_snd hne]
      refine ⟨middle, hsource, htarget, fun e he hcause ↦ ?_⟩
      obtain ⟨e', he', hunit⟩ := exists_error_of_convert he
      exact hfailed e' he' (hcause.imp_right hunit)

theorem exists_ok_of_isSome {α ε : Type} {x : Except ε α} (h : x.toOption.isSome = true) :
    ∃ a, x = .ok a := by
  rcases x with e | a
  · exact absurd h (by simp [Except.toOption])
  · exact ⟨a, rfl⟩

/-- A speed over a registry that holds its units, but not the speed. -/
theorem Converter.registry_extended_speed :
    (Registry.builtIn.Valid ∧
        (Call.single .toInternal {} (.ofDouble 90) "km/h").units =
          [some (.ofString "km/h")]) ∧
      ∃ x, Registry.builtIn.memoOf "km/h" = some x ∧
        Registry.builtIn.AddsEntry "km/h" x ((Call.single .toInternal {} (.ofDouble 90) "km/h").run
          { registry := Registry.builtIn }).2.registry := by
  have hvalue : (evaluate Registry.builtIn "km/h").toOption.isSome = true := by decide +kernel
  have hfree : Registry.builtIn.contains "km/h" = false := by decide +kernel
  have hmemoize : ∀ p : Preferences, p.parseCompound = true → p.memoize = true →
      Registry.builtIn.ToMemoize p "km/h" :=
    fun p hparse hon ↦ ⟨hfree, hparse, hon, exists_ok_of_isSome hvalue⟩
  obtain ⟨hrecalls, -⟩ := (@registry_extended { registry := Registry.builtIn }
    Registry.valid_builtIn).1 (.single .toInternal {} (.ofDouble 90) "km/h") (some "km/h") rfl
  exact ⟨⟨Registry.valid_builtIn, rfl⟩, hrecalls.added (hmemoize _ rfl rfl)⟩

/-- The entry of an area is a double, and not the whole number that the expression evaluates to. And
a conversion of a whole number has left the entry of its second unit when it overflows. -/
theorem Converter.memoized_ne_evaluated :
    ((Registry.ofWhole 94906267).Valid ∧ (Registry.ofWhole (10 ^ 200)).Valid) ∧
      (evaluate (Registry.ofWhole 94906267) "a a").toOption = some (.int 9007199515875289) ∧
      (Call.run (.single .toInternal {} (.ofDouble 1) "a a")
        { registry := Registry.ofWhole 94906267 }).2.registry.linear? "a a" =
          some (.double 9007199515875288) ∧
      failureOf (Converter.convert { registry := Registry.ofWhole (10 ^ 200) } (some true)
        (.number (.int (10 ^ 200))) "a" "2 3").1 = some (.number .overflow) ∧
      (Registry.ofWhole (10 ^ 200)).contains "2 3" = false ∧
      (Converter.convert { registry := Registry.ofWhole (10 ^ 200) } (some true)
        (.number (.int (10 ^ 200))) "a" "2 3").2.registry.contains "2 3" = true := by
  exact ⟨⟨Registry.valid_ofWhole _, Registry.valid_ofWhole _⟩, by decide +kernel,
    by decide +kernel, by decide +kernel, by decide +kernel, by decide +kernel⟩

end Metrology
