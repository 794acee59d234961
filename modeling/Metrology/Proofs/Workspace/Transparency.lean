import Metrology.Proofs.Converter.Doubles
import Metrology.Proofs.Workspace.Action

/-!
# Memoizing is not noticed

A sequence of calls of any converters of a workspace, answered with memoization as the converters
and the calls have it, and answered with memoization off.

With memoization off nothing is written, so each call is answered as if it were the only one
(`answers_runUnmemoized`). With memoization on each call meets registries that have grown
(`exists_used_of_getElem?`), and these extend the ones at the start, which changes no answer in
which only doubles take part. So the two runs agree, and with memoization on too an answer depends
on no call before it.

A whole number for a multiplier is another matter: it can be told from its double, which is what is
memoized.
-/

namespace Metrology

/-- A call that does not memoize by what it asks for itself. -/
def Call.unmemoized : Call → Call
  | single direction request value unit =>
    single direction { request with memoize := some false } value unit
  | multiplier request unit => multiplier { request with memoize := some false } unit
  | call => call

/-- Runs a call with memoization off, in the call and in the converter. -/
def Call.runUnmemoized (call : Call) (c : Converter) : Except Failure Answer × Converter :=
  call.unmemoized.run { c with preferences := { c.preferences with memoize := false } }

namespace Workspace

/-- The answers to calls of converters, one after the other, each run in the same way. -/
def answers (w : Workspace) (run : Call → Converter → Except Failure Answer × Converter) :
    List (Nat × Call) → List (Except Failure Answer)
  | [] => []
  | (number, call) :: calls =>
    (w.use number (run call)).1 :: (w.use number (run call)).2.answers run calls

variable {w w' : Workspace}

/-! ### With memoization off -/

theorem memoizes_unmemoized (call : Call) {p : Preferences} (h : p.memoize = false) :
    call.unmemoized.memoizes p = false := by
  cases call with
  | single | multiplier => rfl
  | between | accepts => exact h

theorem answerIn_unmemoized (call : Call) (r : Registry) (p : Preferences) :
    call.unmemoized.answerIn r { p with memoize := false } = call.answerIn r p := by
  cases call <;> rfl

theorem parses_unmemoized (call : Call) (p : Preferences) :
    call.unmemoized.parses { p with memoize := false } = call.parses p := by
  cases call <;> rfl

/-- With memoization off no registry changes. -/
theorem used_runUnmemoized (w : Workspace) (number : Nat) (call : Call) :
    w.Used false (w.use number call.runUnmemoized).2 := by
  have hused := call.unmemoized.used_run
    { w.converter number with
      preferences := { (w.converter number).preferences with memoize := false } }
  rw [memoizes_unmemoized call rfl] at hused
  exact used_use hused.growsBy.grows hused.registry_eq

theorem use_runUnmemoized_fst (hw : w.Valid) {number : Nat} {call : Call}
    (hparse : call.parses (w.station number).preferences = true) :
    (w.use number call.runUnmemoized).1 = w.answer number call := by
  rw [answer_eq_answerIn hw hparse, ← answerIn_unmemoized]
  exact Call.run_fst call.unmemoized (hw _) ((parses_unmemoized call _).trans hparse)

/-! ### Along the calls -/

/-- Parsing is in effect for every one of the calls. -/
def Parses (w : Workspace) (calls : List (Nat × Call)) : Prop :=
  ∀ number call, (number, call) ∈ calls → call.parses (w.station number).preferences = true

theorem Parses.used {memoize : Bool} {calls : List (Nat × Call)} (h : w.Parses calls)
    (hused : w.Used memoize w') : w'.Parses calls := by
  intro number call hcall
  rw [hused.station_preferences]
  exact h number call hcall

/-- An answer among many is given by a workspace that has only been used. -/
theorem exists_used_of_getElem? {memoize : Bool}
    {run : Call → Converter → Except Failure Answer × Converter}
    (hrun : ∀ (w : Workspace) number call, w.Used memoize (w.use number (run call)).2)
    {calls : List (Nat × Call)} {index number : Nat} {call : Call}
    (hcall : calls[index]? = some (number, call)) :
    ∃ w', w.Used memoize w' ∧
      (w.answers run calls)[index]? = some (w'.use number (run call)).1 := by
  induction calls generalizing w index with
  | nil => exact absurd hcall (by simp)
  | cons head calls ih =>
    cases index with
    | zero =>
      obtain rfl : head = (number, call) := Option.some_inj.1 hcall
      exact ⟨w, w.used_refl memoize, rfl⟩
    | succ index =>
      have hfirst := hrun w head.1 head.2
      obtain ⟨w', hused, hanswer⟩ := @ih (w.use head.1 (run head.2)).2 index hcall
      exact ⟨w', hfirst.trans hused, hanswer⟩

/-- In a workspace that has only been used, a call is answered from an extension of the converter's
registry. -/
theorem answer_of_used {memoize : Bool} (hw : w.Valid) (hused : w.Used memoize w') {number : Nat}
    {call : Call} (hparse : call.parses (w.station number).preferences = true) :
    w'.answer number call = call.answerIn (w'.registry (w.station number).registry)
      (w.station number).preferences := by
  rw [← hused.station_preferences] at hparse
  rw [answer_eq_answerIn (hw.used hused) hparse, hused.station_registry, hused.station_preferences]

/-- With memoization off every call is answered as if it were the only one. -/
theorem answers_runUnmemoized (hw : w.Valid) {calls : List (Nat × Call)}
    (hparse : w.Parses calls) :
    w.answers Call.runUnmemoized calls = calls.map fun asked ↦ w.answer asked.1 asked.2 := by
  induction calls generalizing w with
  | nil => rfl
  | cons asked calls ih =>
    have hused := w.used_runUnmemoized asked.1 asked.2
    have hrest : w.Parses calls := fun number call hcall ↦
      hparse number call (List.mem_cons_of_mem _ hcall)
    rw [answers, List.map_cons, use_runUnmemoized_fst hw (hparse _ _ List.mem_cons_self),
      ih (hw.used hused) (hrest.used hused)]
    congr 1
    -- the calls that follow meet the registries of the start
    refine List.map_congr_left fun other hother ↦ ?_
    have hother := hrest other.1 other.2 hother
    rw [answer_of_used hw hused hother, hused.registry_eq rfl, answer_eq_answerIn hw hother]

/-! ### Both runs -/

/-- Memoizing is not noticed. With memoization off every call is answered as if it were the only
one; with it a call has the same answer as without, if only doubles are registered or if it does not
ask for a multiplier or convert a whole number, and a multiplier that is asked for is the same up to
being given as a double. -/
theorem answers_eq_unmemoized (hw : w.Valid) {calls : List (Nat × Call)}
    (hparse : w.Parses calls) :
    w.answers Call.runUnmemoized calls = calls.map (fun asked ↦ w.answer asked.1 asked.2) ∧
      ∀ (index number : Nat) (call : Call), calls[index]? = some (number, call) →
        ((w.registry (w.station number).registry).OnlyDoubles ∨ call.isWhole = false →
          (w.answers Call.run calls)[index]? = (w.answers Call.runUnmemoized calls)[index]?) ∧
        ∀ request unit, call = .multiplier request unit →
          (w.answers Call.run calls)[index]?.map (Except.map Answer.rounded) =
            (w.answers Call.runUnmemoized calls)[index]?.map (Except.map Answer.rounded) := by
  have hoff := answers_runUnmemoized hw hparse
  refine ⟨hoff, fun index number call hcall ↦ ?_⟩
  have hcallparse := hparse number call (List.mem_of_getElem? hcall)
  have hanswer₀ : (w.answers Call.runUnmemoized calls)[index]? = some (w.answer number call) := by
    rw [hoff, List.getElem?_map, hcall]
    rfl
  -- with memoization on the call meets a workspace that the calls before it have used
  obtain ⟨w', hused, hanswer⟩ := @exists_used_of_getElem? w true Call.run
    (fun w number call ↦ (w.used_call number call).weaken) calls index number call hcall
  have hextends : Registry.Extends (w.registry (w.station number).registry)
      (w'.registry (w.station number).registry) := Registry.extends_of_grows (hused.grows _)
  have hanswer' : (w'.use number call.run).1 = call.answerIn
      (w'.registry (w.station number).registry) (w.station number).preferences :=
    answer_of_used hw hused hcallparse
  rw [hanswer₀, hanswer, hanswer', answer_eq_answerIn hw hcallparse]
  refine ⟨fun hexact ↦ ?_, fun request unit hmultiplier ↦ ?_⟩
  · rw [Call.answerIn_eq_of_extends hextends _ call hexact]
  · subst hmultiplier
    exact congrArg some (Call.rounded_answerIn_of_extends hextends _ request unit)

/-! ### A double and a whole number -/

/-- A converter on a registry of a unit whose multiplier is a double and a unit whose multiplier is
a whole number. -/
def mixedUnits : Workspace :=
  ({} : Workspace).run
    [.seed [⟨"km", "kilometre", .length, .double 1000, [], by decide +kernel⟩,
        ⟨"a", "a", .length, .int 94906267, [], by decide +kernel⟩] [],
      .converter 0 {}]

/-- A call of the first converter that is made two times. -/
def twice (call : Call) : List (Nat × Call) := List.replicate 2 (0, call)

theorem answers_area_eq_unmemoized :
    (mixedUnits.Valid ∧ mixedUnits.Parses (twice (.single .toInternal {} (.ofDouble 2) "km a"))) ∧
      (mixedUnits.answers Call.run (twice (.single .toInternal {} (.ofDouble 2) "km a")))[1]? =
        (mixedUnits.answers Call.runUnmemoized
          (twice (.single .toInternal {} (.ofDouble 2) "km a")))[1]? := by
  have hvalid : mixedUnits.Valid := valid_empty.run _
  have hparse : mixedUnits.Parses (twice (.single .toInternal {} (.ofDouble 2) "km a")) := by
    intro number call hcall
    obtain rfl := congrArg Prod.fst (List.eq_of_mem_replicate hcall)
    obtain rfl := congrArg Prod.snd (List.eq_of_mem_replicate hcall)
    rfl
  exact ⟨⟨hvalid, hparse⟩,
    ((answers_eq_unmemoized hvalid hparse).2 1 0 _ rfl).1 (Or.inr rfl)⟩

/-- A whole number for a multiplier is answered first, and after that the double that was memoized.
-/
theorem answers_ne_answers_unmemoized :
    (mixedUnits.answers Call.run (twice (.multiplier {} "a a"))).map numberIn =
        [some (.int 9007199515875289), some (.double 9007199515875288)] ∧
      (mixedUnits.answers Call.runUnmemoized (twice (.multiplier {} "a a"))).map numberIn =
        [some (.int 9007199515875289), some (.int 9007199515875289)] ∧
      mixedUnits.answers Call.run (twice (.multiplier {} "a a")) ≠
        mixedUnits.answers Call.runUnmemoized (twice (.multiplier {} "a a")) := by
  have hon : (mixedUnits.answers Call.run (twice (.multiplier {} "a a"))).map numberIn =
      [some (.int 9007199515875289), some (.double 9007199515875288)] := by decide +kernel
  have hoff : (mixedUnits.answers Call.runUnmemoized (twice (.multiplier {} "a a"))).map numberIn =
      [some (.int 9007199515875289), some (.int 9007199515875289)] := by decide +kernel
  refine ⟨hon, hoff, fun heq ↦ ?_⟩
  rw [heq, hoff] at hon
  exact absurd hon (by decide)

end Workspace

end Metrology
