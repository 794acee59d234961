import Metrology.Proofs.Converter.Failures

/-!
# Loud and quiet

A call made loudly and the same call made quietly, from the same state. The mode is looked at last:
a single conversion when its unit has been resolved or not (`settle`), a conversion between two
units when both of its parts, which are loud in either mode, are done. So both runs find out the
same, count the same and memoize the same, and they differ in one thing: where the loud run fails to
resolve a unit, the quiet one answers not-a-number in the shape of the value. The relation of two
runs that says so is `Converter.Quietens`.

Evaluating an expression quietly is like that too, but for what is no failure to resolve it: an
expression that overflows fails in either mode.
-/

namespace Metrology

open Expression

/-! ### Not-a-number in the shape of a value -/

namespace Grid

/-- The number of cells along each axis, the first axis first. -/
def shape : Grid → List Nat
  | cell _ => []
  | row [] => [0]
  | row (grid :: grids) => (grids.length + 1) :: grid.shape

theorem shape_map (f : Double → Double) : ∀ grid : Grid, (grid.map f).shape = grid.shape
  | cell _ => by simp [map, shape]
  | row [] => by simp [map, shape]
  | row (grid :: grids) => by simp [map, shape, shape_map f grid]

theorem cells_map (f : Double → Double) : ∀ grid : Grid, (grid.map f).cells = grid.cells.map f
  | cell _ => by simp [map]
  | row grids => by
    have hgrids : ∀ grid ∈ grids, (grid.map f).cells = grid.cells.map f :=
      fun grid _ ↦ cells_map f grid
    simp only [map, cells_row, List.flatMap_map, List.map_flatMap]
    exact List.flatMap_congr hgrids

end Grid

/-- Not-a-number in the shape of a value: of an array, an array of the same shape that holds nothing
else, and of anything else, a single number. -/
inductive Value.IsNaNLike : Value → Value → Prop where
  | number (x : Scalar) : IsNaNLike (number x) (ofDouble .nan)
  | cell (x : Double) : IsNaNLike (cell x) (ofDouble .nan)
  | array {grid nans : Grid} (hshape : nans.shape = grid.shape)
      (hcells : nans.cells = List.replicate grid.cells.length .nan) :
      IsNaNLike (array grid) (array nans)

theorem Value.isNaNLike_nanLike (value : Value) : value.IsNaNLike value.nanLike := by
  cases value with
  | number x => exact .number x
  | cell x => exact .cell x
  | array grid =>
    refine .array (grid.shape_map _) ?_
    rw [Grid.cells_map, List.map_const']

/-! ### Two runs -/

namespace Converter

/-- A loud run and a quiet one that find out the same and leave the same. -/
structure Quietens (value : Value) (loud quiet : Except Failure Value × Converter) : Prop where
  /-- Where a unit cannot be resolved, the quiet run answers not-a-number. -/
  isNaNLike : ∀ cause, loud.1 = .error (.unit cause) →
    ∃ nans, quiet.1 = .ok nans ∧ value.IsNaNLike nans
  /-- Everything else is answered alike. -/
  answer_eq : (∀ cause, loud.1 ≠ .error (.unit cause)) → quiet.1 = loud.1
  registry_eq : quiet.2.registry = loud.2.registry
  statistics_eq : quiet.2.statistics = loud.2.statistics

variable {c : Converter} {value : Value}

/-- A run that resolves its units is the same in either mode. -/
theorem quietens_self {outcome : Except Failure Value × Converter}
    (h : ∀ cause, outcome.1 ≠ .error (.unit cause)) : Quietens value outcome outcome :=
  ⟨fun cause hcause ↦ absurd hcause (h cause), fun _ ↦ rfl, rfl, rfl⟩

theorem quietens_of_unit {cause : UnitError} {after after' : Converter}
    (hregistry : after'.registry = after.registry)
    (hstatistics : after'.statistics = after.statistics) :
    Quietens value (.error (.unit cause), after) (.ok value.nanLike, after') where
  isNaNLike _ _ := ⟨value.nanLike, rfl, value.isNaNLike_nanLike⟩
  answer_eq h := absurd rfl (h cause)
  registry_eq := hregistry
  statistics_eq := hstatistics

theorem finish_ne_unit (c : Converter) (result : Except NumberError Value) (cause : UnitError) :
    (c.finish result).1 ≠ .error (.unit cause) := by
  rw [finish_fst]
  exact mapError_number_ne_unit result cause

/-- The mode is looked at when the unit has been resolved or not. -/
theorem quietens_settle (direction : Direction) (symbol : RawText)
    (outcome : Except Failure Scalar × Converter) :
    Quietens value (settle direction true symbol value outcome)
      (settle direction false symbol value outcome) := by
  rcases outcome with ⟨e | multiplier, after⟩
  · cases e with
    | unit cause => exact quietens_of_unit rfl rfl
    | _ => exact quietens_self (by simp [settle])
  · exact quietens_self (after.finish_ne_unit _)

/-- How a unit is resolved does not depend on the mode. -/
theorem resolve_congr (p p' : Preferences) (hparse : p'.parseCompound = p.parseCompound)
    (hmemoize : p'.memoize = p.memoize) (unit : Option RawText) :
    c.resolve p' unit = c.resolve p unit := by
  rw [resolve, resolve, hparse, hmemoize]

theorem quietens_convertBy (c : Converter) (direction : Direction) (request : Request)
    (value : Value) (unit : Option RawText) :
    Quietens value (c.convertBy direction { request with failLoud := some true } value unit)
      (c.convertBy direction { request with failLoud := some false } value unit) := by
  rcases unit with _ | symbol
  · exact quietens_self (by simp [convertBy])
  · by_cases hsymbol : symbol = ""
    · subst hsymbol
      exact quietens_self (fun cause ↦ nofun)
    · rcases hnonlinear : c.registry.nonlinear? symbol with _ | nonlinear
      · rw [convertBy_linear hsymbol hnonlinear, convertBy_linear hsymbol hnonlinear,
          resolve_congr (c.preferences.override { request with failLoud := some true })
            (c.preferences.override { request with failLoud := some false }) rfl rfl]
        exact quietens_settle direction symbol _
      · rw [convertBy_nonlinear hsymbol hnonlinear, convertBy_nonlinear hsymbol hnonlinear]
        exact quietens_self (c.countHit.finish_ne_unit _)

/-- Both parts of a conversion between two units are done before the mode is looked at. -/
theorem quietens_convert (c : Converter) (value : Value) (source target : Option RawText) :
    Quietens value (c.convert (some true) value source target)
      (c.convert (some false) value source target) := by
  rw [convert, convert]
  split
  · exact quietens_self (by simp)
  · -- the two runs have this outcome in common
    rcases c.convertLoudly value source target with ⟨e | result, after⟩
    · cases e with
      | unit cause => exact quietens_of_unit rfl rfl
      | _ => exact quietens_self (by simp)
    · exact quietens_self (by simp)

end Converter

/-! ### Expressions -/

namespace Expression

variable {r : Registry} {expression : RawText}

/-- An expression has no value that is not-a-number. -/
theorem evaluate_ne_nan (hvalid : r.Valid) (expression : RawText) :
    evaluate r expression ≠ .ok (.double .nan) := by
  intro hvalue
  have husable := isUsable_of_evaluate_eq_ok hvalid hvalue
  exact absurd husable (by decide)

/-- Evaluating loudly is evaluating. -/
theorem multiplier_loud (r : Registry) (expression : RawText) :
    multiplier r expression true = evaluate r expression := by
  rw [multiplier]
  split
  · next cause hcause => exact hcause.symm
  · rfl

theorem multiplier_quiet_of_unit {cause : UnitError}
    (h : evaluate r expression = .error (.unit cause)) :
    multiplier r expression false = .ok (.double .nan) := by
  rw [multiplier, h]
  rfl

theorem multiplier_quiet_of_ne_unit (h : ∀ cause, evaluate r expression ≠ .error (.unit cause)) :
    multiplier r expression false = evaluate r expression := by
  rw [multiplier]
  split
  · next cause hcause => exact absurd hcause (h cause)
  · rfl

theorem multiplier_quiet_eq_nan_iff (hvalid : r.Valid) (expression : RawText) :
    multiplier r expression false = .ok (.double .nan) ↔
      ∃ cause, evaluate r expression = .error (.unit cause) := by
  refine ⟨fun hnan ↦ ?_, fun ⟨cause, hcause⟩ ↦ multiplier_quiet_of_unit hcause⟩
  by_contra hnone
  rw [multiplier_quiet_of_ne_unit fun cause hcause ↦ hnone ⟨cause, hcause⟩] at hnan
  exact evaluate_ne_nan hvalid expression hnan

end Expression

/-! ### Both modes -/

/-- **Loud and quiet calls find out the same and leave the same.** That holds of single conversions
and of conversions between two units, from any state. Evaluating an expression over a valid registry
quietly gives not-a-number exactly where it cannot be resolved, and else what it gives loudly; where
only doubles are registered, that is not-a-number exactly where the loud evaluation fails. -/
theorem Converter.quiet_follows_loud (c : Converter) {r : Registry} (hvalid : r.Valid) :
    (∀ (direction : Direction) (request : Request) (value : Value) (unit : Option RawText),
      Quietens value (c.convertBy direction { request with failLoud := some true } value unit)
        (c.convertBy direction { request with failLoud := some false } value unit)) ∧
    (∀ value source target,
      Quietens value (c.convert (some true) value source target)
        (c.convert (some false) value source target)) ∧
    ∀ expression,
      (Expression.multiplier r expression false = .ok (.double .nan) ↔
        ∃ cause, Expression.multiplier r expression true = .error (.unit cause)) ∧
      ((∀ cause, Expression.multiplier r expression true ≠ .error (.unit cause)) →
        Expression.multiplier r expression false = Expression.multiplier r expression true) ∧
      (r.OnlyDoubles → (Expression.multiplier r expression false = .ok (.double .nan) ↔
        ∃ e, Expression.multiplier r expression true = .error e)) := by
  refine ⟨c.quietens_convertBy, c.quietens_convert, fun expression ↦ ?_⟩
  rw [Expression.multiplier_loud]
  refine ⟨Expression.multiplier_quiet_eq_nan_iff hvalid expression,
    Expression.multiplier_quiet_of_ne_unit, fun hdoubles ↦ ?_⟩
  rw [Expression.multiplier_quiet_eq_nan_iff hvalid expression]
  refine ⟨fun ⟨cause, hcause⟩ ↦ ⟨_, hcause⟩, fun ⟨e, he⟩ ↦ ?_⟩
  -- with doubles only there is no other failure than that to resolve the expression
  rcases failure_of_evaluate he with ⟨fault, part, rfl⟩ | ⟨rfl, -⟩
  · exact ⟨_, he⟩
  · exact absurd he (hdoubles.not_overflows expression)

theorem Converter.quiet_follows_loud_furlong :
    Registry.builtIn.Valid ∧
      Expression.multiplier Registry.builtIn "km/furlong" false = .ok (.double .nan) := by
  have hagree := (Converter.quiet_follows_loud { registry := Registry.builtIn }
    Registry.valid_builtIn).2.2 "km/furlong"
  refine ⟨Registry.valid_builtIn, hagree.1.2 ⟨.unresolved .unknownPart "furlong" "km/furlong", ?_⟩⟩
  decide +kernel

/-- An expression that overflows fails quietly too, where the loud evaluation fails. -/
theorem Expression.multiplier_huge_quiet :
    (Registry.ofWhole (10 ^ 200)).Valid ∧
      failureOf (Expression.multiplier (Registry.ofWhole (10 ^ 200)) "a a" true) =
        some (.number .overflow) ∧
      Expression.multiplier (Registry.ofWhole (10 ^ 200)) "a a" false ≠ .ok (.double .nan) := by
  have hquiet : failureOf (Expression.multiplier (Registry.ofWhole (10 ^ 200)) "a a" false) =
      some (.number .overflow) := by
    decide +kernel
  refine ⟨Registry.valid_ofWhole _, by decide +kernel, fun hnan ↦ ?_⟩
  rw [hnan] at hquiet
  exact absurd hquiet (by simp [failureOf])

end Metrology
