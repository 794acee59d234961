import Metrology.Text.Raw

/-!
# Blanks and decimal digits

Two classes of characters that typed numerals may use: blanks around a numeral, and the decimal
digits of every script. In each script the ten digits have consecutive code points, so the table of
zeros is enough. Version 14 of the Unicode character database.
-/

namespace Metrology.Text

/-- Blanks among the first 128 code points: tabulation to carriage return, and the space. -/
def isAsciiBlank (c : Char) : Bool := (9 ≤ c.toNat && c.toNat ≤ 13) || c == ' '

/-- Blanks beyond the first 128 code points, as inclusive ranges. -/
def wideBlankRanges : List (Nat × Nat) :=
  [(0x85, 0x85), (0xa0, 0xa0), (0x1680, 0x1680), (0x2000, 0x200a), (0x2028, 0x2029),
   (0x202f, 0x202f), (0x205f, 0x205f), (0x3000, 0x3000)]

/-- A character that may surround a typed numeral. -/
def isBlank (c : Char) : Bool :=
  isAsciiBlank c || wideBlankRanges.any fun (first, last) ↦ first ≤ c.toNat && c.toNat ≤ last

/-- The code points of the digit zero in every script. -/
def digitZeros : List Nat :=
  [0x30, 0x660, 0x6f0, 0x7c0, 0x966, 0x9e6, 0xa66, 0xae6, 0xb66, 0xbe6, 0xc66, 0xce6, 0xd66, 0xde6,
   0xe50, 0xed0, 0xf20, 0x1040, 0x1090, 0x17e0, 0x1810, 0x1946, 0x19d0, 0x1a80, 0x1a90, 0x1b50,
   0x1bb0, 0x1c40, 0x1c50, 0xa620, 0xa8d0, 0xa900, 0xa9d0, 0xa9f0, 0xaa50, 0xabf0, 0xff10, 0x104a0,
   0x10d30, 0x11066, 0x110f0, 0x11136, 0x111d0, 0x112f0, 0x11450, 0x114d0, 0x11650, 0x116c0,
   0x11730, 0x118e0, 0x11950, 0x11c50, 0x11d50, 0x11da0, 0x16a60, 0x16ac0, 0x16b50, 0x1d7ce,
   0x1d7d8, 0x1d7e2, 0x1d7ec, 0x1d7f6, 0x1e140, 0x1e2f0, 0x1e950, 0x1fbf0]

/-- The value of a decimal digit of any script. -/
def digitValue? (c : Char) : Option Nat :=
  (digitZeros.find? fun start ↦ start ≤ c.toNat && c.toNat < start + 10).map (c.toNat - ·)

/-- A text without the blanks around it. -/
def trimBlanks (cs : List Char) : List Char :=
  ((cs.dropWhile isBlank).reverse.dropWhile isBlank).reverse

/-- White space of any kind: the blanks and the four information separators. -/
def isSpace : CodePoint → Bool
  | .char c => isBlank c || (0x1c ≤ c.toNat && c.toNat ≤ 0x1f)
  | .half _ _ => false

/-- A text without the space around it. -/
def trimSpace (text : RawText) : RawText :=
  ⟨((text.points.dropWhile isSpace).reverse.dropWhile isSpace).reverse⟩

end Metrology.Text
