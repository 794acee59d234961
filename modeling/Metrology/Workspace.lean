import Metrology.Converter

/-!
# Workspaces

Registries and converters that are used together. A registry can have several converters, which all
see what is memoized in it; the workspace keeps each registry once, under a number, and a converter
holds the number of its registry.

One registry is the **default**: the built-in units, seeded on first use, unless another one is
appointed. A shared converter goes with it. When the default changes, the next use makes a new
shared converter; converters made before keep the registry they were made on.
-/

namespace Metrology

/-- A converter without its registry, which it refers to by number. -/
structure Station where
  registry : Nat
  preferences : Preferences := {}
  statistics : Statistics := {}
deriving DecidableEq, Repr

/-- Registries and converters, by number. -/
structure Workspace where
  registries : List Registry := []
  stations : List Station := []
  /-- The number of the default registry, once there is one. -/
  defaultRegistry : Option Nat := none
  /-- The number of the shared converter, once there is one. -/
  sharedStation : Option Nat := none
  /-- What converters remarked, the latest last. -/
  remarks : List RawText := []

namespace Workspace

/-! ### Registries -/

/-- The registry of a number; unused numbers have no entries. -/
def registry (w : Workspace) (number : Nat) : Registry := (w.registries[number]?).getD ∅

/-- Keeps a registry under a new number. -/
def addRegistry (w : Workspace) (r : Registry) : Nat × Workspace :=
  (w.registries.length, { w with registries := w.registries ++ [r] })

/-- Changes the registry of a number, or leaves it as it is when that is refused. -/
def updateRegistry (w : Workspace) (number : Nat)
    (change : Registry → Except Failure Registry) : Except Failure Unit × Workspace :=
  match change (w.registry number) with
  | .ok r => (.ok (), { w with registries := w.registries.set number r })
  | .error e => (.error e, w)

/-- The default registry, seeded if there is none. -/
def currentRegistry (w : Workspace) : Nat × Workspace :=
  match w.defaultRegistry with
  | some number => (number, w)
  | none =>
    let (number, w) := w.addRegistry Registry.builtIn
    (number, { w with defaultRegistry := some number })

/-- Appoints the default registry, or none, which makes the next use seed a new one. -/
def appoint (w : Workspace) (number : Option Nat) : Workspace :=
  { w with defaultRegistry := number }

/-! ### Converters -/

/-- The station of a number. -/
def station (w : Workspace) (number : Nat) : Station := (w.stations[number]?).getD { registry := 0 }

/-- Makes a converter on a registry. -/
def addConverter (w : Workspace) (registry : Nat) (preferences : Preferences) : Nat × Workspace :=
  (w.stations.length, { w with stations := w.stations ++ [{ registry, preferences }] })

/-- Makes a new shared converter on a registry. -/
def renewShared (w : Workspace) (registry : Nat) : Nat × Workspace :=
  let (number, w) := w.addConverter registry {}
  (number, { w with sharedStation := some number })

/-- The shared converter on the default registry, made anew if that registry has changed. -/
def currentConverter (w : Workspace) : Nat × Workspace :=
  let (registry, w) := w.currentRegistry
  match w.sharedStation with
  | some number =>
    if (w.station number).registry = registry then (number, w) else w.renewShared registry
  | none => w.renewShared registry

/-- A converter together with its registry. -/
def converter (w : Workspace) (number : Nat) : Converter :=
  let station := w.station number
  { registry := w.registry station.registry
    preferences := station.preferences
    statistics := station.statistics }

/-- Puts a converter back after use: its registry, its statistics and its remarks. -/
def putBack (w : Workspace) (number : Nat) (c : Converter) : Workspace :=
  let station := w.station number
  { w with
    registries := w.registries.set station.registry c.registry
    stations := w.stations.set number { station with statistics := c.statistics }
    remarks := w.remarks ++ c.remarks }

/-- Uses the converter of a number. -/
def use {α : Type} (w : Workspace) (number : Nat) (action : Converter → α × Converter) :
    α × Workspace :=
  let (answer, c) := action (w.converter number)
  (answer, w.putBack number c)

/-- The size of a converter's registry. -/
def registeredUnits (w : Workspace) (number : Nat) : Nat :=
  (w.registry (w.station number).registry).size

/-! ### Collecting failures -/

/-- Failures with what an answer failed with, unless that cannot be collected. -/
def collect {α : Type} (failures : List Failure) : Except Failure α → Except Failure (List Failure)
  | .ok _ => .ok failures
  | .error e => if e.isArithmetic then .error e else .ok (failures ++ [e])

/-- The failures of asking a converter for the multipliers of some units, one after the other, after
some that are known. -/
def multiplierFailures (request : Request) (failures : List Failure) (c : Converter) :
    List (Option RawText) → Except Failure (List Failure) × Converter
  | [] => (.ok failures, c)
  | unit :: rest =>
    let (answer, c) := c.multiplier request unit
    match collect failures answer with
    | .ok failures => multiplierFailures request failures c rest
    | .error e => (.error e, c)

/-- The failures of inserting multipliers into a registry, one after the other, after some that are
known. -/
def insertFailures (number : Nat) (failures : List Failure) (w : Workspace) :
    List (RawText × Scalar) → Except Failure (List Failure) × Workspace
  | [] => (.ok failures, w)
  | (symbol, multiplier) :: rest =>
    let (answer, w) := w.updateRegistry number (·.insertScalar symbol multiplier)
    match collect failures answer with
    | .ok failures => insertFailures number failures w rest
    | .error e => (.error e, w)

/-- The failures of asking a converter for multipliers, then of inserting into its registry. A
failure of arithmetic ends it. -/
def collectFailures (w : Workspace) (number : Nat) (request : Request)
    (units : List (Option RawText)) (inserts : List (RawText × Scalar)) :
    Except Failure (List Failure) × Workspace :=
  match w.use number (multiplierFailures request [] · units) with
  | (.error e, w) => (.error e, w)
  | (.ok failures, w) => insertFailures (w.station number).registry failures w inserts

end Workspace

end Metrology
