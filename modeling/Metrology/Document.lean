import Metrology.SymbolMap
import Metrology.Text.Raw
import Metrology.Value

/-!
# Documents

The values that a JSON text can hold. Whole numbers and doubles are told apart, an object keeps its
members in order, and texts and keys are raw, since escapes can denote halves of surrogate pairs.
-/

namespace Metrology

/-- A JSON value. -/
inductive Document where
  | null
  | bool (value : Bool)
  | number (value : Scalar)
  | text (value : RawText)
  | array (elements : List Document)
  | object (members : List (RawText × Document))
deriving Inhabited, BEq

namespace Document

/-- Members in the order of their first occurrence, each with its last value. -/
def lastMembers (members : List (RawText × Document)) : List (RawText × Document) :=
  members.foldl (fun kept (key, value) ↦ SymbolMap.insertEntry key value kept) []

/-- Neither null, nor false, nor zero, nor empty. -/
def isPresent : Document → Bool
  | null => false
  | bool value => value
  | number (.int n) => n != 0
  | number (.double x) => !x.isZero
  | text value => !value.isEmpty
  | array elements => !elements.isEmpty
  | object members => !members.isEmpty

mutual

/-- How deep arrays and objects are nested. -/
def depth : Document → Nat
  | array elements => depthOfElements elements + 1
  | object members => depthOfMembers members + 1
  | _ => 0

/-- The greatest depth of some elements. -/
def depthOfElements : List Document → Nat
  | [] => 0
  | element :: elements => max element.depth (depthOfElements elements)

/-- The greatest depth of some members. -/
def depthOfMembers : List (RawText × Document) → Nat
  | [] => 0
  | (_, value) :: members => max value.depth (depthOfMembers members)

end

end Document

end Metrology
