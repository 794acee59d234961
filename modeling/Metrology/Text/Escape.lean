import Metrology.Text.Raw

/-!
# Control sequences

Control sequences of terminals set colours and move the cursor. A sequence is an escape character,
an opening bracket, any number of parameters and a letter. Where no terminal shows a text it is
written without them.
-/

namespace Metrology.Text

/-- The character that begins a control sequence. -/
def escapeMark : CodePoint := .char '\x1b'

/-- A character that stands between the bracket and the letter of a control sequence. -/
def isParameter : CodePoint → Bool
  | .char c => c == ';' || c == '?' || ('0' ≤ c && c ≤ '9')
  | .half _ _ => false

/-- A letter that ends a control sequence. -/
def isFinal : CodePoint → Bool
  | .char c => ('a' ≤ c && c ≤ 'z') || ('A' ≤ c && c ≤ 'Z')
  | .half _ _ => false

/-- A text without control sequences, after the beginning of one that is held back. What is held
turns out to be none when something comes that does not fit. -/
def dropSequencesFrom : List CodePoint → List CodePoint → List CodePoint
  | held, [] => held
  | held, point :: rest =>
    if point = escapeMark then held ++ dropSequencesFrom [point] rest
    else if held = [] then point :: dropSequencesFrom [] rest
    else if held = [escapeMark] then
      if point = .char '[' then dropSequencesFrom [escapeMark, point] rest
      else held ++ point :: dropSequencesFrom [] rest
    else if isParameter point then dropSequencesFrom (held ++ [point]) rest
    else if isFinal point then dropSequencesFrom [] rest
    else held ++ point :: dropSequencesFrom [] rest

/-- A text without control sequences. -/
def dropSequences (text : RawText) : RawText := ⟨dropSequencesFrom [] text.points⟩

/-- A text without the escape character stays as it is. -/
theorem dropSequencesFrom_of_notMem {points : List CodePoint} (h : escapeMark ∉ points) :
    dropSequencesFrom [] points = points := by
  induction points with
  | nil => rfl
  | cons point points ih =>
    simp only [List.mem_cons, not_or] at h
    simp [dropSequencesFrom, Ne.symm h.1, ih h.2]

end Metrology.Text
