import Metrology.Converter
import Metrology.Rendering.Number
import Metrology.Text.Front

/-!
# Quantities as text

A quantity in internal units is converted to a display unit and written with it. The style with SI
prefixes needs a single linear symbol, and renders in the unprefixed unit under it.

## The unprefixed unit

A prefix is taken off a registered symbol only when the rest is registered too and the two
multipliers differ by exactly that power of ten: `km` and `Gyr` are prefixed, `min`, `mol` and `Pa`
are not.
-/

namespace Metrology

/-- Two doubles are equal within one part in a thousand million. -/
def Double.isClose (x y : Double) : Bool :=
  if x.eqv y then true
  else if !x.isFinite || !y.isFinite then false
  else
    let gap := (y - x).abs
    gap.le (1e-9 * y).abs || gap.le (1e-9 * x).abs

namespace Rendering

/-! ### The unprefixed unit -/

/-- Characters that only a compound expression has. -/
def compoundMarks : List CodePoint := [' ', '/', '^', '(', ')']

/-- The prefixes as a symbol may carry them, with their exponents: micro has two spellings. -/
def symbolPrefixes : List (Int × String) :=
  siPrefixes.flatMap fun (exponent, sign) ↦
    if sign.isEmpty then []
    else if sign = "µ" then [(exponent, sign), (exponent, plainMicro)]
    else [(exponent, sign)]

/-- A multiplier is another one times a power of ten, within what rounding leaves. -/
def differByPower (multiplier base : Scalar) (exponent : Int) : Bool :=
  match multiplier.toDouble, base.toDouble with
  | .ok m, .ok b => m.isClose (b * Double.tenPow exponent)
  | _, _ => false

/-- The registered unit that a symbol prefixes by a given power of ten. -/
def unprefixed? (registry : Registry) (symbol : RawText) (multiplier : Scalar)
    (entry : Int × String) : Option RawText := do
  let rest ← Text.after? (RawText.ofString entry.2).points symbol.points
  let base : RawText := ⟨rest⟩
  let baseMultiplier ← registry.linear? base
  if !rest.isEmpty && differByPower multiplier baseMultiplier entry.1 then some base else none

/-- The symbol that an SI prefix can be put before. -/
def siBaseUnit (registry : Registry) (unit : RawText) : Except RenderingError RawText :=
  if unit.isEmpty then .ok unit
  else if unit.points.any (· ∈ compoundMarks) then .error (.compoundUnit unit)
  else if registry.nonlinear.contains unit then .error (.nonlinearUnit unit)
  else
    match registry.linear? unit with
    | none => .ok unit
    | some multiplier =>
      .ok ((symbolPrefixes.findSome? (unprefixed? registry unit multiplier)).getD unit)

/-! ### Quantities -/

/-- The double that a value stands for, if it stands for a single number. -/
def doubleOf (value : Value) : Except Failure Double :=
  match value.single? with
  | some x => arithmetic x.toDouble
  | none => .error .notSingle

/-- Converts a value out of internal units, and takes it as a double. -/
def external (c : Converter) (value : Value) (unit : RawText) :
    Except Failure Double × Converter :=
  match c.fromInternal {} value (some unit) with
  | (.ok result, c) => (doubleOf result, c)
  | (.error e, c) => (.error e, c)

/-- The number, then the unit if there is one. -/
def attachUnit (unit : RawText) (numeral : String) : RawText :=
  if unit.isEmpty then numeral else numeral ++ " " ++ unit

/-- Writes an external number with its unit. -/
def withUnit (style : Style) (digits : Int) (unicode : Bool) (unit : RawText) (x : Double) :
    Except Failure RawText :=
  match style with
  | .si => si (.double x) unit digits unicode
  | .plain => (plain (.double x) digits).map (attachUnit unit)
  | .scientific => (scientific (.double x) digits unicode).map (attachUnit unit)
  | .named => (named (.double x) digits).map (attachUnit unit)

/-- Renders a quantity of internal units in a display unit. -/
def quantity (c : Converter) (value : Value) (unit : RawText) (style : Style) (digits : Int)
    (unicode : Bool) : Except Failure RawText × Converter :=
  let shownUnit := if style = .si then siBaseUnit c.registry unit else .ok unit
  match shownUnit with
  | .error e => (.error (.rendering e), c)
  | .ok unit =>
    match external c value unit with
    | (.ok x, c) => (withUnit style digits unicode unit x, c)
    | (.error e, c) => (.error e, c)

/-- The style of a name, or the failure to find it. -/
def style (name : String) : Except Failure Style :=
  match Style.ofName? name with
  | some style => .ok style
  | none => .error (.rendering (.unknownStyle name))

end Rendering

end Metrology
