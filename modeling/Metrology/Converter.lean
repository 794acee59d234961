import Metrology.Expression

/-!
# Converting quantities

A converter turns quantities into internal units and back by the units of its registry.

## How a unit is resolved

A nonlinear symbol is converted by its map. Any other unit needs a multiplier: the registered one,
or else the one its expression evaluates to, if expressions are to be parsed. A multiplier found
that way can be memoized, which inserts it into the registry under the text of the expression.

## Loud and quiet

A unit that cannot be resolved is a failure when the call is loud; when it is quiet the result is
not-a-number in the shape of the value. A failure of another kind, a number too large or a division
by zero, is one in either mode.

## What is counted

`Converter.Statistics` counts single conversions, registry hits, parsed units, memoized units and
failed conversions. Remarks record each memoized unit and each quiet failure.
-/

namespace Metrology

/-- How a converter behaves unless a call says otherwise. -/
structure Preferences where
  parseCompound : Bool := true
  memoize : Bool := true
  failLoud : Bool := true
deriving DecidableEq, Repr

/-- What a single call asks for; a field left open is taken from the preferences. -/
structure Request where
  parseCompound : Option Bool := none
  memoize : Option Bool := none
  failLoud : Option Bool := none
deriving DecidableEq, Repr

namespace Preferences

/-- The preferences of a single call. -/
def override (p : Preferences) (request : Request) : Preferences where
  parseCompound := request.parseCompound.getD p.parseCompound
  memoize := request.memoize.getD p.memoize
  failLoud := request.failLoud.getD p.failLoud

end Preferences

/-- What a converter has done. -/
structure Statistics where
  conversions : Nat := 0
  registryHits : Nat := 0
  parsedUnits : Nat := 0
  memoizedUnits : Nat := 0
  errors : Nat := 0
deriving DecidableEq, Repr

/-- A converter over a registry. -/
structure Converter where
  registry : Registry
  preferences : Preferences := {}
  statistics : Statistics := {}
  /-- What there was to remark, the latest last. -/
  remarks : List RawText := []

/-- Which way a quantity is converted. -/
inductive Direction where
  | toInternal
  | fromInternal
deriving DecidableEq, Repr

namespace Direction

/-- The step that puts a multiplier on, or takes it off. -/
def step (direction : Direction) (multiplier : Scalar) : Step :=
  match direction with
  | toInternal => .times multiplier
  | fromInternal => .dividedBy multiplier

/-- The map of a nonlinear unit. -/
def map (direction : Direction) (unit : NonlinearUnit) : ValueMap :=
  match direction with
  | toInternal => unit.toInternal
  | fromInternal => unit.fromInternal

end Direction

namespace Converter

/-! ### Counting and remarking -/

def count (c : Converter) (change : Statistics → Statistics) : Converter :=
  { c with statistics := change c.statistics }

def remark (c : Converter) (text : RawText) : Converter :=
  { c with remarks := c.remarks ++ [text] }

def countHit (c : Converter) : Converter :=
  c.count fun s ↦ { s with registryHits := s.registryHits + 1 }

def countConversion (c : Converter) : Converter :=
  c.count fun s ↦ { s with conversions := s.conversions + 1 }

def countError (c : Converter) : Converter :=
  c.count fun s ↦ { s with errors := s.errors + 1 }

def countParsed (c : Converter) : Converter :=
  c.count fun s ↦ { s with parsedUnits := s.parsedUnits + 1 }

def countMemoized (c : Converter) : Converter :=
  c.count fun s ↦ { s with memoizedUnits := s.memoizedUnits + 1 }

/-- The statistics of a fresh converter. -/
def resetStatistics (c : Converter) : Converter := { c with statistics := {} }

/-! ### Multipliers -/

/-- Stores a parsed multiplier, as a double, under the text of its expression. -/
def memoize (c : Converter) (unit : RawText) (multiplier : Scalar) :
    Except Failure Scalar × Converter :=
  match c.registry.insertScalar unit multiplier with
  | .error e => (.error e, c)
  | .ok registry =>
    (.ok multiplier, ({ c with registry }).countMemoized.remark
      ("Memoized compound unit '" ++ unit ++ "' = " ++ multiplier.text))

/-- The multiplier of a unit: registered, or parsed. A unit that is not given is parsed as the empty
expression. -/
def resolve (c : Converter) (preferences : Preferences) (unit : Option RawText) :
    Except Failure Scalar × Converter :=
  match unit.bind c.registry.linear? with
  | some multiplier => (.ok multiplier, c.countHit)
  | none =>
    if !preferences.parseCompound then (.error (.unit (.unknown unit)), c)
    else
      match Expression.evaluate c.registry (unit.getD "") with
      | .error e => (.error e, c)
      | .ok multiplier =>
        if preferences.memoize then c.countParsed.memoize (unit.getD "") multiplier
        else (.ok multiplier, c.countParsed)

/-- The multiplier of a linear unit or an expression. -/
def multiplier (c : Converter) (request : Request) (unit : Option RawText) :
    Except Failure Scalar × Converter :=
  match unit.bind c.registry.nonlinear? with
  | some _ => (.error (.unit (.noMultiplier (unit.getD ""))), c)
  | none => c.resolve (c.preferences.override request) unit

/-! ### Single conversions -/

/-- Ends a conversion whose arithmetic has been done. -/
def finish (c : Converter) (result : Except NumberError Value) :
    Except Failure Value × Converter :=
  match result with
  | .ok value => (.ok value, c.countConversion)
  | .error e => (.error (.number e), c)

/-- Ends a conversion whose unit cannot be resolved. -/
def refuse (c : Converter) (failLoud : Bool) (unit : RawText) (cause : UnitError) (value : Value) :
    Except Failure Value × Converter :=
  if failLoud then (.error (.unit cause), c.countError)
  else
    (.ok value.nanLike, c.countError.remark
      ("Quiet conversion failure for '" ++ unit ++ "': " ++ cause.message))

/-- Converts a value by one unit. Without a unit, or with the empty one, the value stays as it is.
-/
def convertBy (c : Converter) (direction : Direction) (request : Request) (value : Value)
    (unit : Option RawText) : Except Failure Value × Converter :=
  match unit with
  | none | some ⟨[]⟩ => (.ok value, c)
  | some unit =>
    let preferences := c.preferences.override request
    match c.registry.nonlinear? unit with
    | some nonlinear => c.countHit.finish ((direction.map nonlinear).run value)
    | none =>
      match c.resolve preferences (some unit) with
      | (.ok multiplier, c) => c.finish ((direction.step multiplier).run value)
      | (.error (.unit cause), c) => c.refuse preferences.failLoud unit cause value
      | (.error e, c) => (.error e, c)

/-- Converts a value in a unit to internal units. -/
def toInternal (c : Converter) (request : Request) (value : Value) (unit : Option RawText) :
    Except Failure Value × Converter :=
  c.convertBy .toInternal request value unit

/-- Converts a value in internal units to a unit. -/
def fromInternal (c : Converter) (request : Request) (value : Value) (unit : Option RawText) :
    Except Failure Value × Converter :=
  c.convertBy .fromInternal request value unit

/-! ### From unit to unit -/

/-- Both single conversions, the second only after the first. -/
def convertLoudly (c : Converter) (value : Value) (source target : Option RawText) :
    Except Failure Value × Converter :=
  let loud : Request := { failLoud := some true }
  match c.toInternal loud value source with
  | (.ok internal, c) => c.fromInternal loud internal target
  | (.error e, c) => (.error e, c)

/-- Converts a value between two units. Between equal units it stays as it is, whatever they are. -/
def convert (c : Converter) (failLoud : Option Bool) (value : Value)
    (source target : Option RawText) : Except Failure Value × Converter :=
  if source = target then (.ok value, c)
  else
    match c.convertLoudly value source target with
    | (.error (.unit cause), after) =>
      if failLoud.getD c.preferences.failLoud then
        (.error (.unit (.between source target cause)), after)
      else (.ok value.nanLike, after)
    | outcome => outcome

/-! ### Asking about units -/

/-- The value is a number and that number is not-a-number. -/
def isNaN : Value → Bool
  | .number (.double x) => x.isNaN
  | _ => false

/-- Whether values in a unit can be converted, by converting one quietly. -/
def accepts (c : Converter) (parseCompound : Option Bool) (unit : Option RawText) :
    Except Failure Bool × Converter :=
  match c.toInternal { parseCompound, failLoud := some false } (.ofDouble 1) unit with
  | (.ok value, c) => (.ok !isNaN value, c)
  | (.error e, c) => (.error e, c)

end Converter

end Metrology
