/-!
# Kinds of units

The categories that units are filed under.
-/

namespace Metrology

/-- The category of a unit. -/
inductive UnitKind where
  | length | time | mass | temperature | angle | current | amount | luminosity | area | volume
  | frequency | force | pressure | energy | power | velocity | dimensionless | compound
deriving DecidableEq, Repr

namespace UnitKind

/-- All kinds, in the order in which they are declared. -/
def all : List UnitKind :=
  [length, time, mass, temperature, angle, current, amount, luminosity, area, volume,
   frequency, force, pressure, energy, power, velocity, dimensionless, compound]

def name : UnitKind → String
  | length => "length"
  | time => "time"
  | mass => "mass"
  | temperature => "temperature"
  | angle => "angle"
  | current => "current"
  | amount => "amount"
  | luminosity => "luminosity"
  | area => "area"
  | volume => "volume"
  | frequency => "frequency"
  | force => "force"
  | pressure => "pressure"
  | energy => "energy"
  | power => "power"
  | velocity => "velocity"
  | dimensionless => "dimensionless"
  | compound => "compound"

/-- The kind of a given name. -/
def ofName? (name : String) : Option UnitKind := all.find? fun kind ↦ kind.name = name

theorem mem_all (kind : UnitKind) : kind ∈ all := by cases kind <;> decide

end UnitKind

end Metrology
