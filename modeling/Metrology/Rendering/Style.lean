/-!
# Styles

The ways in which the number of a quantity can be written.
-/

namespace Metrology

/-- How the number of a quantity is written. -/
inductive Style where
  /-- With all its places, such as `0.00123`. -/
  | plain
  /-- As a mantissa and a power of ten, such as `1.23e-3`. -/
  | scientific
  /-- With an SI prefix before the unit, such as `1.23 mm`. -/
  | si
  /-- With a named power of a thousand, such as `1.23 million`. -/
  | named
deriving DecidableEq, Repr

namespace Style

def all : List Style := [plain, scientific, si, named]

def name : Style → String
  | plain => "plain"
  | scientific => "scientific"
  | si => "si"
  | named => "named"

/-- The style of a given name. -/
def ofName? (name : String) : Option Style := all.find? fun style ↦ style.name = name

theorem mem_all (style : Style) : style ∈ all := by cases style <;> decide

end Style

end Metrology
