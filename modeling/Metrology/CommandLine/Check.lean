import Metrology.Converter

/-!
# Checking units

Telling, for each of several units, whether it can be converted, and how many cannot. Each unit gets
a line of its own, in order, and all are judged by one converter. A unit that cannot be resolved is
invalid; a failure of another kind ends the check, and so does a line that cannot be written.
-/

namespace Metrology.CommandLine

/-- What became of a unit: what one of it is in internal units, or why it is invalid. -/
structure Verdict where
  unit : RawText
  answer : Except UnitError Value

/-- A value on a line. An array has no line. -/
def valueText : Value → String
  | .number scalar => scalar.text
  | .cell x => x.text
  | .array _ => ""

namespace Verdict

/-- The line of a unit. -/
def line (v : Verdict) : RawText :=
  match v.answer with
  | .ok value => v.unit ++ ": ok (" ++ valueText value ++ ")"
  | .error cause => v.unit ++ ": invalid (" ++ cause.message ++ ")"

/-- Why the unit is invalid, if it is. -/
def cause? (v : Verdict) : Option UnitError :=
  match v.answer with
  | .ok _ => none
  | .error cause => some cause

/-- The verdict, if its line can be written. -/
def written (v : Verdict) : Except Failure Verdict :=
  if v.line.isWritable then .ok v else .error .unwritableText

end Verdict

/-- How units are converted when they are checked: loudly, and parsed unless that is ruled out. -/
def checkRequest (noParse : Bool) : Request :=
  { parseCompound := some !noParse, failLoud := some true }

/-- The verdict on a unit, if it has one and its line can be written. -/
def verdictOf (unit : RawText) : Except Failure Value → Except Failure Verdict
  | .ok value => Verdict.written ⟨unit, .ok value⟩
  | .error (.unit cause) => Verdict.written ⟨unit, .error cause⟩
  | .error failure => .error failure

/-- Judges units one after the other, until one has no verdict. -/
def judge (noParse : Bool) (c : Converter) :
    List RawText → List Verdict × Option Failure × Converter
  | [] => ([], none, c)
  | unit :: units =>
    let (answer, c) := c.toInternal (checkRequest noParse) (.ofDouble 1) (some unit)
    match verdictOf unit answer with
    | .ok verdict =>
      let (verdicts, failure, c) := judge noParse c units
      (verdict :: verdicts, failure, c)
    | .error failure => ([], some failure, c)

/-- The causes of all invalid units. -/
def causes (verdicts : List Verdict) : List UnitError := verdicts.filterMap Verdict.cause?

/-- The number of invalid units of each class, by the name of the class. -/
def countText (causes : List UnitError) : String :=
  let counts := Failure.classCounts (causes.map Failure.unit)
  ", ".intercalate ((counts.mergeSort fun a b ↦ decide (a.1 ≤ b.1)).map fun (name, n) ↦
    name ++ "=" ++ toString n)

/-- The line under all others, if any unit is invalid. -/
def summaryLines (units : Nat) (causes : List UnitError) : List RawText :=
  if causes.isEmpty then []
  else
    [toString causes.length ++ " of " ++ toString units ++ " units invalid: " ++ countText causes]

end Metrology.CommandLine
