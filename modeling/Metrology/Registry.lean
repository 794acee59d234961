import Metrology.SymbolMap
import Metrology.Units.Table

/-!
# Registries

A registry says what unit symbols stand for: a multiplier, or a nonlinear unit.

## Two ways to write

* **Inserting** overwrites. It refuses a multiplier that is zero or not finite, and a symbol of the
  other kind. What is inserted is a double.
* **Registering** a definition never changes a meaning: it refuses as soon as one of the
  definition's symbols stands for something else, and then writes nothing. The multiplier is kept as
  it was given, so a whole number stays one.

`Registry.seed` fills an empty registry from lists of definitions in which no symbol occurs twice.
-/

namespace Metrology

/-- What unit symbols stand for. -/
structure Registry where
  linear : SymbolMap Scalar
  nonlinear : SymbolMap NonlinearUnit

namespace Registry

/-- The registry without entries. -/
def empty : Registry := ⟨∅, ∅⟩

instance : EmptyCollection Registry := ⟨empty⟩

instance : Inhabited Registry := ⟨empty⟩

/-! ### Looking up -/

/-- The multiplier of a linear symbol. -/
def linear? (r : Registry) (symbol : RawText) : Option Scalar := r.linear.get? symbol

/-- The unit of a nonlinear symbol. -/
def nonlinear? (r : Registry) (symbol : RawText) : Option NonlinearUnit := r.nonlinear.get? symbol

/-- The symbol stands for something. -/
def contains (r : Registry) (symbol : RawText) : Bool :=
  r.linear.contains symbol || r.nonlinear.contains symbol

/-- The number of symbols. -/
def size (r : Registry) : Nat := r.linear.size + r.nonlinear.size

/-- All symbols, by code point. -/
def symbols (r : Registry) : List RawText :=
  (r.linear.keys ++ r.nonlinear.keys).mergeSort fun s t ↦ decide (s ≤ t)

/-- The registry's text: how many symbols of either kind it has. -/
def text (r : Registry) : String :=
  "UnitRegistry(linear=" ++ toString r.linear.size ++ ", nonlinear=" ++
    toString r.nonlinear.size ++ ")"

/-! ### Inserting -/

/-- Gives a symbol a multiplier, whatever multiplier it had. -/
def insertLinear (r : Registry) (symbol : RawText) (multiplier : Double) :
    Except RegistryError Registry :=
  if !multiplier.isFiniteNonzero then .error (.unusableMultiplier symbol multiplier)
  else if r.nonlinear.contains symbol then .error (.registeredNonlinear symbol)
  else .ok { r with linear := r.linear.insert symbol (.double multiplier) }

/-- Gives a symbol a nonlinear unit, whatever nonlinear unit it had. -/
def insertNonlinear (r : Registry) (unit : NonlinearUnit) : Except RegistryError Registry :=
  if r.linear.contains unit.symbol then .error (.registeredLinear unit.symbol)
  else .ok { r with nonlinear := r.nonlinear.insert unit.symbol unit }

/-- Gives a symbol the double that a number stands for as its multiplier. -/
def insertScalar (r : Registry) (symbol : RawText) (multiplier : Scalar) :
    Except Failure Registry := do
  let multiplier ← multiplier.toDouble.mapError Failure.number
  (r.insertLinear symbol multiplier).mapError Failure.registry

/-- The registry of some multipliers and nothing else. -/
def ofMultipliers (multipliers : SymbolMap Scalar) : Except Failure Registry :=
  multipliers.entries.foldlM (fun r (symbol, multiplier) ↦ r.insertScalar symbol multiplier) empty

/-! ### Registering -/

/-- The symbol may be registered with the multiplier: it is free, or has an equal multiplier. -/
def admits (r : Registry) (multiplier : Scalar) (symbol : RawText) : Bool :=
  !r.nonlinear.contains symbol && (r.linear? symbol).all (·.eqv multiplier)

/-- Registers a linear unit under all its symbols. -/
def register (r : Registry) (unit : LinearUnit) : Except RegistryError Registry :=
  match unit.symbols.find? (!r.admits unit.multiplier ·) with
  | some symbol => .error (.registered symbol)
  | none =>
    .ok { r with linear := r.linear.insertAll (unit.symbols.map (·, unit.multiplier)) }

/-- Registers a nonlinear unit under all its symbols. -/
def registerNonlinear (r : Registry) (unit : NonlinearUnit) : Except RegistryError Registry :=
  match unit.symbols.find? r.contains with
  | some symbol => .error (.registered symbol)
  | none => .ok { r with nonlinear := r.nonlinear.insertAll (unit.symbols.map (·, unit)) }

/-! ### Seeding -/

/-- The first symbol that occurs a second time. -/
def firstRepeated? (seen : List RawText) : List RawText → Option RawText
  | [] => none
  | symbol :: rest =>
    if symbol ∈ seen then some symbol else firstRepeated? (symbol :: seen) rest

/-- The registry of two lists of definitions, which must not repeat a symbol. -/
def seed (linear : List LinearUnit) (nonlinear : List NonlinearUnit) :
    Except RegistryError Registry :=
  match firstRepeated? [] (linear.flatMap (·.symbols) ++ nonlinear.flatMap (·.symbols)) with
  | some symbol => .error (.repeatedInSeed symbol)
  | none => do
    let r ← linear.foldlM register empty
    nonlinear.foldlM registerNonlinear r

/-- The registry of the built-in units. -/
def builtIn : Registry :=
  match seed UnitTable.linear UnitTable.nonlinear with
  | .ok r => r
  | .error _ => empty

end Registry

end Metrology
