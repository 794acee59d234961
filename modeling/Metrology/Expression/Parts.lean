import Metrology.Text.Raw

/-!
# Parts of a unit expression

How the text of a unit expression falls into parts. An operator counts only outside all
parentheses. The operators are the space for products, the slash for quotients and the caret for
powers, from the loosest to the tightest; each splits at its first occurrence.
-/

namespace Metrology

/-- The operators of unit expressions. -/
inductive Operator where
  | product
  | quotient
  | power
deriving DecidableEq, Repr

namespace Operator

/-- The sign of an operator. -/
def sign : Operator → CodePoint
  | product => .char ' '
  | quotient => .char '/'
  | power => .char '^'

/-- All operators, the loosest first. -/
def byLooseness : List Operator := [product, quotient, power]

end Operator

namespace Parts

/-- Every parenthesis has its partner, below a number of open ones. -/
def balancedFrom : Nat → List CodePoint → Bool
  | depth, [] => depth == 0
  | depth, .char '(' :: rest => balancedFrom (depth + 1) rest
  | 0, .char ')' :: _ => false
  | depth + 1, .char ')' :: rest => balancedFrom depth rest
  | depth, _ :: rest => balancedFrom depth rest

/-- Every parenthesis has its partner. -/
def balanced (text : List CodePoint) : Bool := balancedFrom 0 text

/-- What precedes the parenthesis that closes a group, if nothing follows it. -/
def groupBody? : Nat → List CodePoint → Option (List CodePoint)
  | _, [] => none
  | 0, [.char ')'] => some []
  | 0, .char ')' :: _ :: _ => none
  | depth + 1, .char ')' :: rest => (groupBody? depth rest).map (.char ')' :: ·)
  | depth, c :: rest =>
    (groupBody? (if c = .char '(' then depth + 1 else depth) rest).map (c :: ·)

/-- The inside of a text that is one group, from its first character to its last. -/
def inside? : List CodePoint → Option (List CodePoint)
  | .char '(' :: rest => groupBody? 0 rest
  | _ => none

/-- The two sides of the first occurrence of a sign outside parentheses. -/
def sides? (sign : CodePoint) : Nat → List CodePoint → Option (List CodePoint × List CodePoint)
  | _, [] => none
  | depth, c :: rest =>
    if depth = 0 ∧ c = sign then some ([], rest)
    else
      let depth :=
        if c = .char '(' then depth + 1 else if c = .char ')' then depth - 1 else depth
      (sides? sign depth rest).map fun (left, right) ↦ (c :: left, right)

/-- The loosest operator outside parentheses, with its two sides. -/
def split? (text : List CodePoint) : Option (Operator × List CodePoint × List CodePoint) :=
  Operator.byLooseness.findSome? fun operator ↦
    (sides? operator.sign 0 text).map fun sides ↦ (operator, sides)

end Parts

end Metrology
