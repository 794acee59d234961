import Metrology.Units.Definition

/-!
# The built-in units

The units that a registry is seeded with. The internal units are metre, kilogram, second, kelvin,
ampere, mole, candela and radian.
-/

namespace Metrology

namespace UnitTable

/-! ### Constants -/

/-- The double nearest to π. -/
def pi : Double := 3.141592653589793

def day : Double := 86400
def julianYear : Double := 365.25 * day
def astronomicalUnit : Double := 149597870700
def lightYear : Double := 299792458 * julianYear
def parsec : Double := astronomicalUnit * 648000 / pi
def electronVolt : Double := 1.602176634e-19
def degree : Double := pi / 180
def zeroCelsius : Double := 273.15

/-! ### Linear units -/

def linear : List LinearUnit := [
  { symbol := "m", name := "meter", kind := .length, multiplier := .double 1 },
  { symbol := "km", name := "kilometer", kind := .length, multiplier := .double 1e3 },
  { symbol := "cm", name := "centimeter", kind := .length, multiplier := .double 1e-2 },
  { symbol := "mm", name := "millimeter", kind := .length, multiplier := .double 1e-3 },
  { symbol := "µm", name := "micrometer", kind := .length, multiplier := .double 1e-6,
    aliases := ["um"] },
  { symbol := "nm", name := "nanometer", kind := .length, multiplier := .double 1e-9 },
  { symbol := "au", name := "astronomical unit", kind := .length,
    multiplier := .double astronomicalUnit, aliases := ["AU"] },
  { symbol := "ly", name := "light year", kind := .length, multiplier := .double lightYear },
  { symbol := "pc", name := "parsec", kind := .length, multiplier := .double parsec },
  { symbol := "kpc", name := "kiloparsec", kind := .length, multiplier := .double (1e3 * parsec) },
  { symbol := "Mpc", name := "megaparsec", kind := .length, multiplier := .double (1e6 * parsec) },
  { symbol := "s", name := "second", kind := .time, multiplier := .double 1 },
  { symbol := "ms", name := "millisecond", kind := .time, multiplier := .double 1e-3 },
  { symbol := "µs", name := "microsecond", kind := .time, multiplier := .double 1e-6,
    aliases := ["us"] },
  { symbol := "ns", name := "nanosecond", kind := .time, multiplier := .double 1e-9 },
  { symbol := "min", name := "minute", kind := .time, multiplier := .double 60 },
  { symbol := "h", name := "hour", kind := .time, multiplier := .double 3600 },
  { symbol := "d", name := "day", kind := .time, multiplier := .double day },
  { symbol := "yr", name := "julian year", kind := .time, multiplier := .double julianYear,
    aliases := ["a"] },
  { symbol := "Myr", name := "megayear", kind := .time, multiplier := .double (1e6 * julianYear) },
  { symbol := "Gyr", name := "gigayear", kind := .time, multiplier := .double (1e9 * julianYear) },
  { symbol := "kg", name := "kilogram", kind := .mass, multiplier := .double 1 },
  { symbol := "g", name := "gram", kind := .mass, multiplier := .double 1e-3 },
  { symbol := "mg", name := "milligram", kind := .mass, multiplier := .double 1e-6 },
  { symbol := "t", name := "tonne", kind := .mass, multiplier := .double 1e3 },
  { symbol := "K", name := "kelvin", kind := .temperature, multiplier := .double 1 },
  { symbol := "rad", name := "radian", kind := .angle, multiplier := .double 1 },
  { symbol := "deg", name := "degree", kind := .angle, multiplier := .double degree,
    aliases := ["°"] },
  { symbol := "arcmin", name := "arcminute", kind := .angle, multiplier := .double (degree / 60) },
  { symbol := "arcsec", name := "arcsecond", kind := .angle,
    multiplier := .double (degree / 3600) },
  { symbol := "A", name := "ampere", kind := .current, multiplier := .double 1 },
  { symbol := "mol", name := "mole", kind := .amount, multiplier := .double 1 },
  { symbol := "cd", name := "candela", kind := .luminosity, multiplier := .double 1 },
  { symbol := "ha", name := "hectare", kind := .area, multiplier := .double 1e4 },
  { symbol := "L", name := "liter", kind := .volume, multiplier := .double 1e-3, aliases := ["l"] },
  { symbol := "Hz", name := "hertz", kind := .frequency, multiplier := .double 1 },
  { symbol := "N", name := "newton", kind := .force, multiplier := .double 1 },
  { symbol := "Pa", name := "pascal", kind := .pressure, multiplier := .double 1 },
  { symbol := "kPa", name := "kilopascal", kind := .pressure, multiplier := .double 1e3 },
  { symbol := "bar", name := "bar", kind := .pressure, multiplier := .double 1e5 },
  { symbol := "atm", name := "atmosphere", kind := .pressure, multiplier := .double 101325 },
  { symbol := "J", name := "joule", kind := .energy, multiplier := .double 1 },
  { symbol := "kJ", name := "kilojoule", kind := .energy, multiplier := .double 1e3 },
  { symbol := "cal", name := "calorie", kind := .energy, multiplier := .double 4.184 },
  { symbol := "eV", name := "electronvolt", kind := .energy, multiplier := .double electronVolt },
  { symbol := "W", name := "watt", kind := .power, multiplier := .double 1 },
  { symbol := "kW", name := "kilowatt", kind := .power, multiplier := .double 1e3 },
  { symbol := "%", name := "percent", kind := .dimensionless, multiplier := .double 1e-2 }]

/-! ### Nonlinear units -/

/-- From degrees Celsius to kelvin, and back. -/
def fromCelsius : Step := .plus (.double zeroCelsius)

def toCelsius : Step := .minus (.double zeroCelsius)

/-- The temperature scales. -/
def nonlinear : List NonlinearUnit := [
  { symbol := "degC", name := "degree Celsius", toInternal := .ofSteps [fromCelsius],
    fromInternal := .ofSteps [toCelsius], aliases := ["°C"] },
  { symbol := "degF", name := "degree Fahrenheit",
    toInternal := .ofSteps
      [.minus (.double 32), .times (.double 5), .dividedBy (.double 9), fromCelsius],
    fromInternal := .ofSteps
      [toCelsius, .times (.double 9), .dividedBy (.double 5), .plus (.double 32)],
    aliases := ["°F"] }]

/-! ### Finding units -/

/-- The built-in linear unit of a symbol or alias. -/
def find? (symbol : RawText) : Option LinearUnit := linear.find? fun u ↦ symbol ∈ u.symbols

/-- The built-in linear units of a kind, in the order of the table. -/
def ofKind (kind : UnitKind) : List LinearUnit := linear.filter fun u ↦ u.kind = kind

end UnitTable

end Metrology
