import Metrology.Proofs.Converter.Call

/-!
# Whole numbers and doubles

A memoized multiplier is a double, also where the expression has a whole number for a value. Whether
that can be told from the answers depends on what is converted and what is registered. It cannot:

* if nothing but doubles is registered, for then all values of expressions are doubles
  (`isDouble_of_evaluate_eq_ok`);
* if no whole number is converted, for in arithmetic with a double or with cells a whole number goes
  by its double anyway (`run_step_of_toDouble`).

In either case the memoized entries make no difference to an answer (`Call.answerIn_eq_of_extends`),
and to a multiplier that is asked for at most the difference between a number and its double
(`Call.rounded_answerIn_of_extends`).
-/

namespace Metrology

open Expression

/-! ### Registries of doubles -/

theorem ok_of_toOption_eq_some {α ε : Type} {result : Except ε α} {a : α}
    (h : result.toOption = some a) : result = .ok a := by
  rcases result with e | b
  · exact absurd h (by simp [Except.toOption])
  · exact congrArg Except.ok (Option.some_inj.1 h)

/-- Whole numbers come of products of whole numbers only. -/
theorem apply?_eq_some_int {operator : Operator} {x y : Scalar} {n : Int}
    (h : operator.apply? x y = some (.int n)) :
    operator = .product ∧ ∃ j k : Int, x = .int j ∧ y = .int k ∧ n = j * k := by
  cases operator with
  | product =>
    replace h := ok_of_toOption_eq_some h
    unfold Scalar.mul Scalar.combine at h
    split at h
    · next j k => exact ⟨rfl, j, k, rfl, rfl, (Scalar.int.inj (Except.ok.inj h)).symm⟩
    · obtain ⟨_, -, h⟩ := exists_of_bind_eq_ok h
      obtain ⟨_, -, h⟩ := exists_of_bind_eq_ok h
      exact nomatch Except.ok.inj h
  | quotient =>
    replace h := ok_of_toOption_eq_some h
    unfold Scalar.div at h
    split at h
    · split_ifs at h
      exact nomatch Except.ok.inj h
    · obtain ⟨_, -, h⟩ := exists_of_bind_eq_ok h
      obtain ⟨_, -, h⟩ := exists_of_bind_eq_ok h
      split_ifs at h
      exact nomatch Except.ok.inj h
  | power =>
    obtain ⟨_, -, h⟩ := Option.bind_eq_some_iff.1 h
    obtain ⟨_, -, h⟩ := Option.bind_eq_some_iff.1 h
    obtain ⟨_, -, h⟩ := Option.bind_eq_some_iff.1 h
    exact nomatch Option.some_inj.1 h

/-- An operation on doubles gives a double. -/
theorem isDouble_of_operate_eq_ok {expression : RawText} {operator : Operator}
    {part : List CodePoint}
    {x y z : Scalar} (hx : x.IsDouble) (hy : y.IsDouble)
    (h : operate expression operator part x y = .ok z) : z.IsDouble := by
  obtain ⟨x, rfl⟩ := hx
  obtain ⟨y, rfl⟩ := hy
  rw [operate] at h
  split at h
  · exact absurd h (by simp)
  · next n hn =>
    obtain ⟨-, j, k, hj, -⟩ := apply?_eq_some_int hn
    exact absurd hj (by simp)
  · next x _ =>
    split at h
    · exact ⟨x, (Except.ok.inj h).symm⟩
    · exact absurd h (by simp)

namespace Registry

/-- All multipliers are doubles. -/
def OnlyDoubles (r : Registry) : Prop :=
  ∀ (symbol : RawText) (multiplier : Scalar), r.linear? symbol = some multiplier →
    multiplier.IsDouble

variable {r r' : Registry}

theorem onlyDoubles_empty : (∅ : Registry).OnlyDoubles := fun _ _ h ↦ nomatch h

/-- What is inserted is a double. -/
theorem OnlyDoubles.insertScalar (h : r.OnlyDoubles) {symbol : RawText} {multiplier : Scalar}
    (hok : r.insertScalar symbol multiplier = .ok r') : r'.OnlyDoubles := by
  obtain ⟨x, -, -, -, rfl⟩ := insertScalar_eq_ok_iff.1 hok
  intro key multiplier hkey
  rw [linear?, SymbolMap.get?_insert] at hkey
  split at hkey
  · exact ⟨x, (Option.some_inj.1 hkey).symm⟩
  · exact h key multiplier hkey

theorem onlyDoubles_of_ofMultipliers {multipliers : SymbolMap Scalar}
    (hok : ofMultipliers multipliers = .ok r) : r.OnlyDoubles :=
  foldlM_ok_induction (fun _ _ _ h hstep ↦ OnlyDoubles.insertScalar h hstep) onlyDoubles_empty hok

theorem OnlyDoubles.operand (h : r.OnlyDoubles) {expression : RawText} {part : List CodePoint}
    {z : Scalar} (hok : Expression.operand r expression part = .ok z) : z.IsDouble := by
  rcases leaf_eq_ok (leaf_of_operand_eq_ok hok) with hlinear | ⟨-, literal, -, -, rfl⟩
  · exact h _ _ hlinear
  · exact ⟨_, rfl⟩

theorem OnlyDoubles.outcome (h : r.OnlyDoubles) {expression : RawText} {operators : List Operator}
    (d : Derivation operators) {z : Scalar} (hok : d.outcome r expression = .ok z) :
    z.IsDouble := by
  induction d generalizing z with
  | tighter phrase ih => exact ih hok
  | split left right ihleft ihright =>
    rw [Derivation.outcome_split] at hok
    obtain ⟨x, hleft, hx⟩ := exists_of_bind_eq_ok hok
    obtain ⟨y, hright, hy⟩ := exists_of_bind_eq_ok hx
    exact isDouble_of_operate_eq_ok (ihleft hleft) (ihright hright) hy
  | group inside ih => exact ih hok
  | leaf text isLeaf => exact h.operand hok

/-- Over a registry of doubles, expressions have doubles for values. -/
theorem isDouble_of_evaluate_eq_ok (h : r.OnlyDoubles) {expression : RawText} {multiplier : Scalar}
    (hok : evaluate r expression = .ok multiplier) : multiplier.IsDouble := by
  obtain ⟨d, -, houtcome, -⟩ := exists_derivation_of_evaluate_eq_ok hok
  exact h.outcome d houtcome

theorem isDouble_of_multiplierOf_eq_ok (h : r.OnlyDoubles) {unit : Option RawText}
    {multiplier : Scalar} (hok : r.multiplierOf unit = .ok multiplier) : multiplier.IsDouble := by
  rw [multiplierOf] at hok
  split at hok
  · next hlinear =>
    obtain ⟨symbol, -, hlinear⟩ := Option.bind_eq_some_iff.1 hlinear
    exact Except.ok.inj hok ▸ h _ _ hlinear
  · exact isDouble_of_evaluate_eq_ok h hok

/-- Where there are only doubles, memoizing changes no multiplier. -/
theorem multiplierOf_eq_of_onlyDoubles (h : Extends r r') (hdoubles : r.OnlyDoubles)
    (unit : Option RawText) : r'.multiplierOf unit = r.multiplierOf unit := by
  rcases multiplierOf_of_extends h unit with hsame | ⟨multiplier, x, hmultiplier, hx, hdouble⟩
  · exact hsame
  · obtain ⟨y, rfl⟩ := isDouble_of_multiplierOf_eq_ok hdoubles hmultiplier
    obtain rfl : y = x := Except.ok.inj hx
    rw [hmultiplier, hdouble]

end Registry

/-! ### Values that are no whole numbers -/

namespace Step

theorem operand_step (direction : Direction) (multiplier : Scalar) :
    (direction.step multiplier).operand = multiplier := by
  cases direction <;> rfl

/-- What a step does to a cell lies in the double of its operand. -/
theorem onCell_step (direction : Direction) (multiplier multiplier' : Scalar) (y z : Double) :
    (direction.step multiplier).onCell y z = (direction.step multiplier').onCell y z := by
  cases direction <;> rfl

/-- A value that is no whole number meets a number as it meets the double of that number. -/
theorem run_step_of_toDouble {direction : Direction} {multiplier : Scalar} {x : Double}
    {value : Value} (hvalue : value.isWhole = false) (h : multiplier.toDouble = .ok x) :
    (direction.step (.double x)).run value = (direction.step multiplier).run value := by
  cases value with
  | number y =>
    cases y with
    | int n => exact absurd hvalue (by simp [Value.isWhole])
    | double y =>
      cases direction with
      | toInternal =>
        show Except.map Value.number ((Scalar.double y).mul (.double x)) =
          Except.map Value.number ((Scalar.double y).mul multiplier)
        rw [Scalar.mul, Scalar.combine_double, Scalar.combine_double, h, Scalar.toDouble_double]
      | fromInternal =>
        show Except.map Value.number ((Scalar.double y).div (.double x)) =
          Except.map Value.number ((Scalar.double y).div multiplier)
        rw [Scalar.div_double_left, Scalar.div_double_left, h, Scalar.toDouble_double]
  | array grid | cell y =>
    rw [run, run, operand_step, operand_step, h, Scalar.toDouble_double]
    simp only [onCell_step direction (.double x) multiplier]

end Step

/-! ### Answers with the memoized entries -/

namespace Registry

variable {r r' : Registry} {direction : Direction} {loud : Bool} {value : Value}

/-- With the double of the multiplier the answer is the same, if no whole number is converted. -/
theorem answerWith_double {multiplier : Scalar} {x : Double} (hvalue : value.isWhole = false)
    (h : multiplier.toDouble = .ok x) :
    answerWith direction loud value (.ok (.double x)) =
      answerWith direction loud value (.ok multiplier) := by
  rw [answerWith, answerWith, Step.run_step_of_toDouble hvalue h]

/-- The memoized entries change no conversion, if only doubles are registered or converted. -/
theorem answerBy_eq_of_extends (h : Extends r r') (hexact : r.OnlyDoubles ∨ value.isWhole = false)
    (direction : Direction) (loud : Bool) (unit : Option RawText) :
    r'.answerBy direction loud value unit = r.answerBy direction loud value unit := by
  rcases hexact with hdoubles | hvalue
  · exact answerBy_congr h.nonlinear_eq (multiplierOf_eq_of_onlyDoubles h hdoubles unit) _ _ _
  · rcases multiplierOf_of_extends h unit with hsame | ⟨multiplier, x, hmultiplier, hx, hdouble⟩
    · exact answerBy_congr h.nonlinear_eq hsame _ _ _
    · rw [answerBy.eq_def, answerBy.eq_def]
      split
      · rfl
      · rfl
      · rw [hmultiplier, hdouble, answerWith_double hvalue hx, nonlinear?, nonlinear?,
          h.nonlinear_eq]

/-- What is answered for a value that is no whole number is none either. -/
theorem isWhole_of_answerWith_eq_ok {outcome : Except Failure Scalar} {result : Value}
    (hvalue : value.isWhole = false) (h : answerWith direction loud value outcome = .ok result) :
    result.isWhole = false := by
  rw [answerWith.eq_def] at h
  split at h
  · exact Step.isWhole_run hvalue (ok_of_mapError_eq_ok h)
  · split at h
    · exact absurd h (by simp)
    · exact Except.ok.inj h ▸ value.isWhole_nanLike
  · exact absurd h (by simp)

theorem isWhole_of_answerBy_eq_ok {unit : Option RawText} {result : Value}
    (hvalue : value.isWhole = false) (h : r.answerBy direction loud value unit = .ok result) :
    result.isWhole = false := by
  rw [answerBy.eq_def] at h
  split at h
  · exact Except.ok.inj h ▸ hvalue
  · exact Except.ok.inj h ▸ hvalue
  · split at h
    · exact (direction.map _).isWhole_run hvalue (ok_of_mapError_eq_ok h)
    · exact isWhole_of_answerWith_eq_ok hvalue h

theorem answerBetween_eq_of_extends (h : Extends r r')
    (hexact : r.OnlyDoubles ∨ value.isWhole = false) (loud : Bool)
    (source target : Option RawText) :
    r'.answerBetween loud value source target = r.answerBetween loud value source target := by
  rw [answerBetween, answerBetween, answerBy_eq_of_extends h hexact]
  rcases hinternal : r.answerBy .toInternal true value source with e | internal
  · rfl
  · -- the second conversion is one of the result of the first
    have hinternal : r.OnlyDoubles ∨ internal.isWhole = false :=
      hexact.imp_right fun hvalue ↦ isWhole_of_answerBy_eq_ok hvalue hinternal
    have hsecond := answerBy_eq_of_extends h hinternal .fromInternal true target
    simp only [bind, Except.bind, hsecond]

theorem answerMultiplier_eq_of_extends (h : Extends r r') (hdoubles : r.OnlyDoubles)
    (unit : Option RawText) : r'.answerMultiplier unit = r.answerMultiplier unit :=
  answerMultiplier_congr h.nonlinear_eq (multiplierOf_eq_of_onlyDoubles h hdoubles unit)

/-- The multiplier of a unit, asked for, is the one without memoized entries, or its double. -/
theorem answerMultiplier_of_extends (h : Extends r r') (unit : Option RawText) :
    r'.answerMultiplier unit = r.answerMultiplier unit ∨
      ∃ (multiplier : Scalar) (x : Double), r.answerMultiplier unit = .ok multiplier ∧
        multiplier.toDouble = .ok x ∧ r'.answerMultiplier unit = .ok (.double x) := by
  rcases multiplierOf_of_extends h unit with hsame | ⟨multiplier, x, hmultiplier, hx, hdouble⟩
  · exact Or.inl (answerMultiplier_congr h.nonlinear_eq hsame)
  · rw [answerMultiplier, answerMultiplier, bind_nonlinear?_congr h.nonlinear_eq]
    split
    · exact Or.inl rfl
    · exact Or.inr ⟨multiplier, x, hmultiplier, hx, hdouble⟩

end Registry

/-- The answer with the double of a multiplier in its place. -/
def Answer.rounded : Answer → Answer
  | .multiplier x =>
    match x.toDouble with
    | .ok y => .multiplier (.double y)
    | .error _ => .multiplier x
  | answer => answer

namespace Call

variable {r r' : Registry}

/-- The answer can lie in a whole number: a whole number is converted, or a multiplier asked for. -/
def isWhole : Call → Bool
  | single _ _ value _ | between _ value _ _ => value.isWhole
  | accepts _ _ => false
  | multiplier _ _ => true

/-- The memoized entries change no answer, if there are only doubles. -/
theorem answerIn_eq_of_extends (h : Registry.Extends r r') (p : Preferences) (call : Call)
    (hexact : r.OnlyDoubles ∨ call.isWhole = false) : call.answerIn r' p = call.answerIn r p := by
  cases call with
  | single direction request value unit =>
    rw [answerIn, answerIn, Registry.answerBy_eq_of_extends h hexact]
  | between failLoud value source target =>
    rw [answerIn, answerIn, Registry.answerBetween_eq_of_extends h hexact]
  | accepts parseCompound unit =>
    rw [answerIn, answerIn, Registry.answerBy_eq_of_extends h (Or.inr rfl)]
  | multiplier request unit =>
    have hdoubles := hexact.resolve_right (by simp [isWhole])
    rw [answerIn, answerIn, Registry.answerMultiplier_eq_of_extends h hdoubles]

/-- The memoized entries change a multiplier that is asked for at most to its double. -/
theorem rounded_answerIn_of_extends (h : Registry.Extends r r') (p : Preferences)
    (request : Request) (unit : Option RawText) :
    ((multiplier request unit).answerIn r' p).map Answer.rounded =
      ((multiplier request unit).answerIn r p).map Answer.rounded := by
  rw [answerIn, answerIn]
  rcases Registry.answerMultiplier_of_extends h unit with hsame | ⟨parsed, x, hparsed, hx, hdouble⟩
  · rw [hsame]
  · rw [hparsed, hdouble]
    simp only [Except.map, Answer.rounded, hx, Scalar.toDouble_double]

end Call

end Metrology
