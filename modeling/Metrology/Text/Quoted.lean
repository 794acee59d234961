import Metrology.Text.Printable
import Metrology.Text.Raw

/-!
# Quoted text

A text between quotes, on one line and in printable characters only. The quotes are single, or
double when the text holds a single quote and no double one. The backslash, the quote in use,
everything unprintable and halves of surrogate pairs are escaped.
-/

namespace Metrology.Text

/-- The lowest `width` hexadecimal digits of a number, in lower case. -/
def hexDigits (width n : Nat) : List Char :=
  let digits := (Nat.toDigits 16 n)
  List.replicate (width - digits.length) '0' ++ digits

/-- A character by its code point, in the shortest of three forms that can hold it. -/
def codeEscape (c : Char) : List Char :=
  if c.toNat < 0x100 then '\\' :: 'x' :: hexDigits 2 c.toNat
  else if c.toNat < 0x10000 then '\\' :: 'u' :: hexDigits 4 c.toNat
  else '\\' :: 'U' :: hexDigits 8 c.toNat

/-- One character between quotes. -/
def quoteChar (quote c : Char) : List Char :=
  if c = quote ∨ c = '\\' then ['\\', c]
  else if c = '\n' then ['\\', 'n']
  else if c = '\r' then ['\\', 'r']
  else if c = '\t' then ['\\', 't']
  else if isPrintable c then [c]
  else codeEscape c

/-- The quote a text is put between. -/
def quoteFor (cs : List Char) : Char :=
  if '\'' ∈ cs ∧ '"' ∉ cs then '"' else '\''

/-- One code point between quotes. -/
def quotePoint (quote : Char) : CodePoint → List Char
  | .char c => quoteChar quote c
  | .half unit _ => '\\' :: 'u' :: hexDigits 4 unit

/-- A text between quotes, which can be written always. -/
def quoted (text : RawText) : String :=
  let quote := quoteFor (text.points.filterMap CodePoint.char?)
  String.ofList (quote :: text.points.flatMap (quotePoint quote) ++ [quote])

/-- A text as it is written where nothing may fail: halves of surrogate pairs by their numbers. -/
def escaped (text : RawText) : String :=
  String.ofList (text.points.flatMap fun point ↦
    match point with
    | .char c => [c]
    | .half _ _ => quotePoint '"' point)

end Metrology.Text
