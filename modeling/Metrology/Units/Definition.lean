import Metrology.Failure
import Metrology.Units.Kind
import Metrology.Units.Step

/-!
# Unit definitions

A **linear** unit relates to the internal unit by a multiplier: a value in the unit times the
multiplier is the value in internal units. A **nonlinear** unit relates to it by two maps of values,
one for each direction; nothing requires them to be inverse to each other, or affine.

Both have a symbol and any number of aliases.
-/

namespace Metrology

/-- The kind of a given name, or the failure to find it. -/
def UnitKind.named (name : String) : Except Failure UnitKind :=
  match ofName? name with
  | some kind => .ok kind
  | none => .error (.registry (.unknownKind name))

/-! ### Linear units -/

/-- A linear unit. Its multiplier is a number as it was given, neither zero nor infinite nor
not-a-number. -/
structure LinearUnit where
  symbol : RawText
  name : String
  kind : UnitKind
  multiplier : Scalar
  aliases : List RawText := []
  usable : multiplier.isUsable = true := by decide +kernel

namespace LinearUnit

/-- The symbol, then the aliases. -/
def symbols (u : LinearUnit) : List RawText := u.symbol :: u.aliases

/-- A definition with a multiplier that is checked. Zero is refused first; of a whole number too
large for a double nothing more can be told. -/
def define (symbol : RawText) (name : String) (kind : UnitKind) (multiplier : Scalar)
    (aliases : List RawText) : Except Failure LinearUnit :=
  if h : multiplier.isUsable = true then .ok ⟨symbol, name, kind, multiplier, aliases, h⟩
  else if multiplier.isZero || multiplier.toDouble.isOk then
    .error (.registry (.unusableDefinition multiplier))
  else .error (.number .overflow)

end LinearUnit

/-! ### Nonlinear units -/

/-- A nonlinear unit. -/
structure NonlinearUnit where
  symbol : RawText
  name : String
  toInternal : ValueMap
  fromInternal : ValueMap
  kind : UnitKind := .temperature
  aliases : List RawText := []

namespace NonlinearUnit

/-- The symbol, then the aliases. -/
def symbols (u : NonlinearUnit) : List RawText := u.symbol :: u.aliases

/-- The unit with internal value `x * scale + offset`. -/
def affine (symbol : RawText) (name : String) (scale offset : Scalar)
    (kind : UnitKind := .temperature) (aliases : List RawText := []) : NonlinearUnit where
  symbol
  name
  toInternal := .ofSteps [.times scale, .plus offset]
  fromInternal := .ofSteps [.minus offset, .dividedBy scale]
  kind
  aliases

end NonlinearUnit

end Metrology
