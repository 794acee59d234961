/-!
# The front of a text

What follows a given beginning.
-/

namespace Metrology.Text

/-- What a text has after a beginning, if it has that beginning. -/
def after? {α : Type} [DecidableEq α] : List α → List α → Option (List α)
  | [], rest => some rest
  | c :: beginning, d :: rest => if c = d then after? beginning rest else none
  | _ :: _, [] => none

theorem after?_eq_some_iff {α : Type} [DecidableEq α] {beginning text rest : List α} :
    after? beginning text = some rest ↔ text = beginning ++ rest := by
  induction beginning generalizing text with
  | nil => simp [after?, eq_comm]
  | cons c beginning ih =>
    cases text with
    | nil => simp [after?]
    | cons d text =>
      by_cases h : c = d
      · subst h; simp [after?, ih]
      · simp [after?, h, Ne.symm h]

end Metrology.Text
