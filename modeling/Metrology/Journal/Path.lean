import Metrology.Failure

/-!
# Paths of files

The plain form of a path has single slashes, none at the end, and no single dots. What a log file
can be called is told from that form.

A text fails to be a path when it holds half a surrogate pair or a zero character, or when it or a
name in it is too long. The directory is looked at before the whole path, since it is made before
the file. Halves that stand for single bytes pass there, but they cannot be written where the log
names its file.
-/

namespace Metrology

namespace LogPath

/-- Half a surrogate pair that stands for a byte beyond the first 128. -/
def isByteHalf : CodePoint → Bool
  | .char _ => false
  | .half unit _ => 0xdc80 ≤ unit && unit ≤ 0xdcff

/-- The bytes of a code point in a path. -/
def byteSize : CodePoint → Nat
  | .char c => c.utf8Size
  | .half _ _ => 1

def byteLength (points : List CodePoint) : Nat :=
  points.foldl (fun bytes point ↦ bytes + byteSize point) 0

/-- The longest path, and the longest name in a path, in bytes. -/
def maxPathBytes : Nat := 4095

def maxNameBytes : Nat := 255

/-- The names in a path. -/
def names (points : List CodePoint) : List (List CodePoint) := points.splitOn (.char '/')

/-- Why a text is no path. -/
def failureOf? (points : List CodePoint) : Option Failure :=
  if points.any fun point ↦ point.char?.isNone && !isByteHalf point then some .unwritableText
  else if points.contains (.char '\x00') then some .zeroInPath
  else if maxPathBytes < byteLength points || (names points).any (maxNameBytes < byteLength ·) then
    some .pathTooLong
  else none

/-- The slashes that a plain path begins with: exactly two stay two, more are one. -/
def root (points : List CodePoint) : List CodePoint :=
  match (points.takeWhile (· == .char '/')).length with
  | 0 => []
  | 2 => [.char '/', .char '/']
  | _ => [.char '/']

/-- The names of a plain path. -/
def plainNames (points : List CodePoint) : List (List CodePoint) :=
  (names points).filter fun name ↦ !name.isEmpty && name != [.char '.']

/-- A path of names. A path without any is the current directory. -/
def ofNames (root : List CodePoint) (names : List (List CodePoint)) : List CodePoint :=
  let points := root ++ [.char '/'].intercalate names
  if points.isEmpty then [.char '.'] else points

/-- The plain form of a path. -/
def plain (path : RawText) : RawText := ⟨ofNames (root path.points) (plainNames path.points)⟩

/-- The name of a log file in plain form, if it can be one. -/
def check (path : RawText) : Except Failure String :=
  let directory := ofNames (root path.points) (plainNames path.points).dropLast
  match (failureOf? directory).or (failureOf? (plain path).points) with
  | some failure => .error failure
  | none =>
    match (plain path).toString? with
    | some name => .ok name
    | none => .error .unwritableText

/-- The beginnings of a path that end before a slash, the longest first, with what precedes the
path. -/
def beginnings (above : List Char) : List Char → List String
  | [] => []
  | c :: rest =>
    let longer := beginnings (above ++ [c]) rest
    if c = '/' ∧ above ≠ [] then longer ++ [String.ofList above] else longer

/-- The directories that a file of a plain path lies in, the nearest first. -/
def directories (path : String) : List String := beginnings [] path.toList

end LogPath

end Metrology
