import Metrology.Proofs.Workspace.Action

/-!
# What a memoized multiplier is the value of

A run in which a registry is written to and converted by at the same time, and a unit whose text
nobody writes to that registry. As long as the unit has not been memoized, it is converted by the
value of its expression as the registry is at that moment. Once it is, it is converted by the value
that the expression had when it was memoized, as a double, whatever is written after that: the entry
is a multiplier like any other, and nothing tells what it was made of.

All this rests on what one action does to the entry of a unit that it does not write
(`linear?_perform`): nothing, or the entry appears. An entry that is there stays along a run
(`linear?_run_of_some`), so there is one action at most that makes it (`linear?_run_of_none`).
-/

namespace Metrology.Workspace

open Expression

variable {w : Workspace} {number : Nat} {unit : RawText}

/-- The entry of a unit that an action does not write stays, or appears by memoizing the unit. -/
theorem linear?_perform (w : Workspace) {action : Action} (hnumber : number < w.registries.length)
    (hunit : unit ∉ action.targets number) :
    ((w.perform action).2.registry number).linear? unit = (w.registry number).linear? unit ∨
      (w.registry number).linear? unit = none ∧ action.memoizesIn w = some number ∧
        some unit ∈ action.units ∧
        ∃ multiplier x, evaluate (w.registry number) unit = .ok multiplier ∧
          multiplier.toDouble = .ok x ∧
          ((w.perform action).2.registry number).linear? unit = some (.double x) := by
  rcases w.registry_perform action hnumber with hagrees | ⟨hmemoizes, hgrows⟩
  · exact Or.inl (hagrees.linear_eq hunit)
  · have hextends := Registry.extends_of_grows hgrows.grows
    by_cases hasked : some unit ∈ action.units
    · rcases hbefore : (w.registry number).linear? unit with _ | multiplier
      · rcases hafter : ((w.perform action).2.registry number).linear? unit with _ | multiplier
        · exact Or.inl rfl
        · obtain ⟨value, x, hvalue, hx, rfl⟩ := hextends.memoized hbefore hafter
          exact Or.inr ⟨rfl, hmemoizes, hasked, value, x, hvalue, hx, rfl⟩
      · exact Or.inl (hextends.kept hbefore)
    · exact Or.inl (hgrows.linear?_eq hasked)

theorem nonlinear?_perform (w : Workspace) {action : Action}
    (hnumber : number < w.registries.length) (hunit : unit ∉ action.targets number) :
    ((w.perform action).2.registry number).nonlinear? unit =
      (w.registry number).nonlinear? unit := by
  rcases w.registry_perform action hnumber with hagrees | ⟨-, hgrows⟩
  · exact hagrees.nonlinear_eq hunit
  · exact congrArg (·.get? unit) (Registry.extends_of_grows hgrows.grows).nonlinear_eq

/-! ### Along a run -/

/-- No action writes a unit to a registry. -/
def Unwritten (number : Nat) (unit : RawText) (actions : List Action) : Prop :=
  ∀ action ∈ actions, unit ∉ action.targets number

instance (number : Nat) (unit : RawText) (actions : List Action) :
    Decidable (Unwritten number unit actions) :=
  inferInstanceAs (Decidable (∀ action ∈ actions, unit ∉ action.targets number))

variable {actions : List Action}

theorem nonlinear?_run (hnumber : number < w.registries.length)
    (hunwritten : Unwritten number unit actions) :
    ((w.run actions).registry number).nonlinear? unit = (w.registry number).nonlinear? unit := by
  induction actions generalizing w with
  | nil => rfl
  | cons action actions ih =>
    obtain ⟨haction, hactions⟩ := List.forall_mem_cons.1 hunwritten
    rw [run_cons, ih (hnumber.trans_le (w.length_perform action)) hactions,
      w.nonlinear?_perform hnumber haction]

/-- An entry that is not written stays. -/
theorem linear?_run_of_some (hnumber : number < w.registries.length)
    (hunwritten : Unwritten number unit actions) {multiplier : Scalar}
    (h : (w.registry number).linear? unit = some multiplier) :
    ((w.run actions).registry number).linear? unit = some multiplier := by
  induction actions generalizing w with
  | nil => exact h
  | cons action actions ih =>
    obtain ⟨haction, hactions⟩ := List.forall_mem_cons.1 hunwritten
    refine ih (hnumber.trans_le (w.length_perform action)) hactions ?_
    rcases w.linear?_perform hnumber haction with hsame | ⟨hnone, -⟩
    · exact hsame.trans h
    · exact absurd (hnone.symm.trans h) (by simp)

/-- A unit without an entry has none in the end, or one action of the run has memoized it: then its
entry is the double of its value right before that action. -/
theorem linear?_run_of_none (hnumber : number < w.registries.length)
    (hunwritten : Unwritten number unit actions) (h : (w.registry number).linear? unit = none) :
    ((w.run actions).registry number).linear? unit = none ∨
      ∃ before action after, actions = before ++ action :: after ∧
        action.memoizesIn (w.run before) = some number ∧ some unit ∈ action.units ∧
        ((w.run before).registry number).linear? unit = none ∧
        ∃ multiplier x, evaluate ((w.run before).registry number) unit = .ok multiplier ∧
          multiplier.toDouble = .ok x ∧
          ((w.run actions).registry number).linear? unit = some (.double x) := by
  induction actions generalizing w with
  | nil => exact Or.inl h
  | cons action actions ih =>
    obtain ⟨haction, hactions⟩ := List.forall_mem_cons.1 hunwritten
    have hnumber' := hnumber.trans_le (w.length_perform action)
    -- the first action that makes the entry is the one that is asked for
    rcases w.linear?_perform hnumber haction with
      hsame | ⟨-, hmemoizes, hasked, multiplier, x, hvalue, hx, hnew⟩
    · rcases ih hnumber' hactions (hsame.trans h) with hnone | ⟨before, later, after, rfl, hlater⟩
      · exact Or.inl hnone
      · exact Or.inr ⟨action :: before, later, after, rfl, hlater⟩
    · exact Or.inr ⟨[], action, actions, rfl, hmemoizes, hasked, h, multiplier, x, hvalue, hx,
        linear?_run_of_some hnumber' hactions hnew⟩

/-! ### The multiplier in the end -/

/-- After any run, a unit that was free in a registry and that nobody has written to it is converted
by a multiplier; and that is the value of its expression as the registry is now, if the unit has not
been memoized, and else the double of the value as the registry was when a call of the unit memoized
it. -/
theorem multiplier_of_unwritten (hw : w.Valid) (hnumber : number < w.registries.length)
    (hunit : unit ≠ "") (hfree : (w.registry number).contains unit = false)
    (hunwritten : Unwritten number unit actions) :
    let r := (w.run actions).registry number
    (∀ converter call, ((w.run actions).station converter).registry = number →
        call.parses ((w.run actions).station converter).preferences = true →
        (w.run actions).answer converter call =
          call.answerIn r ((w.run actions).station converter).preferences) ∧
      (∀ direction loud value, r.answerBy direction loud value unit =
        Registry.answerWith direction loud value (r.multiplierOf unit)) ∧
      r.answerMultiplier unit = r.multiplierOf unit ∧
      (r.linear? unit = none ∧ r.multiplierOf unit = evaluate r unit ∨
        ∃ before action after, actions = before ++ action :: after ∧
          action.memoizesIn (w.run before) = some number ∧ some unit ∈ action.units ∧
          ((w.run before).registry number).linear? unit = none ∧
          ∃ multiplier x, evaluate ((w.run before).registry number) unit = .ok multiplier ∧
            multiplier.toDouble = .ok x ∧ r.multiplierOf unit = .ok (.double x)) := by
  intro r
  rw [Registry.contains, Bool.or_eq_false_iff, SymbolMap.contains_eq_false_iff,
    SymbolMap.contains_eq_false_iff] at hfree
  have hnonlinear : r.nonlinear? unit = none :=
    (nonlinear?_run hnumber hunwritten).trans hfree.2
  refine ⟨fun converter call hconverter hparse ↦ ?_, fun direction loud value ↦ ?_, ?_, ?_⟩
  · rw [answer_eq_answerIn (hw.run actions) hparse, hconverter]
  · exact Registry.answerBy_linear hunit hnonlinear
  · simp only [Registry.answerMultiplier, Option.bind_some, hnonlinear]
  · rcases linear?_run_of_none hnumber hunwritten hfree.1 with
      hnone | ⟨before, action, after, hactions, hmemoizes, hasked, hbefore, multiplier, x, hvalue,
        hx, hentry⟩
    · exact Or.inl ⟨hnone, Registry.multiplierOf_some_of_linear?_eq_none hnone⟩
    · exact Or.inr ⟨before, action, after, hactions, hmemoizes, hasked, hbefore, multiplier, x,
        hvalue, hx, Registry.multiplierOf_some_of_linear? hentry⟩

/-- A converter on a registry of a unit of length and a unit of time. -/
def speedUnits : Workspace :=
  ({} : Workspace).run
    [.ofMultipliers ⟨[("km", .double 1000), ("s", .double 1)], by decide⟩, .converter 0 {}]

/-- A speed in internal units. -/
def speedCall : Call := .single .toInternal {} (.ofDouble 1) "km/s"

/-- A speed is converted, and then the unit of length gets another multiplier. -/
def speedThenUpdate : List Action :=
  [.call 0 speedCall, .insertLinear 0 "km" (.double 500)]

theorem multiplier_of_unwritten_speed :
    (speedUnits.Valid ∧ 0 < speedUnits.registries.length ∧ RawText.ofString "km/s" ≠ "" ∧
        (speedUnits.registry 0).contains "km/s" = false ∧ Unwritten 0 "km/s" speedThenUpdate) ∧
      ∃ before action after, speedThenUpdate = before ++ action :: after ∧
        action.memoizesIn (speedUnits.run before) = some 0 ∧
        some (.ofString "km/s") ∈ action.units ∧
        ((speedUnits.run before).registry 0).linear? "km/s" = none ∧
        ∃ multiplier x,
          evaluate ((speedUnits.run before).registry 0) "km/s" = .ok multiplier ∧
          multiplier.toDouble = .ok x ∧
          ((speedUnits.run speedThenUpdate).registry 0).multiplierOf "km/s" =
            .ok (.double x) := by
  have hvalid : speedUnits.Valid := valid_empty.run _
  have hnumber : 0 < speedUnits.registries.length := by decide +kernel
  have hfree : (speedUnits.registry 0).contains "km/s" = false := by decide +kernel
  have hunwritten : Unwritten 0 "km/s" speedThenUpdate := by decide +kernel
  have hmemoized : ((speedUnits.run speedThenUpdate).registry 0).linear? "km/s" ≠ none := by
    decide +kernel
  exact ⟨⟨hvalid, hnumber, by decide, hfree, hunwritten⟩,
    (multiplier_of_unwritten hvalid hnumber (by decide) hfree hunwritten).2.2.2.resolve_left
      fun hnone ↦ hmemoized hnone.1⟩

/-- After the unit of length has changed, the speed is still converted by the multiplier that it had
before, not by the value of its expression. -/
theorem answer_speed_ne_evaluate :
    ((speedUnits.registry 0).contains "km/s" = false ∧ Unwritten 0 "km/s" speedThenUpdate) ∧
      (evaluate ((speedUnits.run speedThenUpdate).registry 0) "km/s").toOption =
        some (.double 500) ∧
      ((speedUnits.run speedThenUpdate).registry 0).multiplierOf "km/s" ≠
        evaluate ((speedUnits.run speedThenUpdate).registry 0) "km/s" ∧
      numberIn ((speedUnits.run speedThenUpdate).answer 0 speedCall) = some (.double 1000) := by
  have hunwritten : Unwritten 0 "km/s" speedThenUpdate := by decide +kernel
  have hvalue : (evaluate ((speedUnits.run speedThenUpdate).registry 0) "km/s").toOption =
      some (.double 500) := by decide +kernel
  have hmultiplier : (((speedUnits.run speedThenUpdate).registry 0).multiplierOf "km/s").toOption =
      some (.double 1000) := by decide +kernel
  refine ⟨⟨by decide +kernel, hunwritten⟩, hvalue, fun heq ↦ ?_, by decide +kernel⟩
  rw [heq, hvalue] at hmultiplier
  exact absurd hmultiplier (by decide +kernel)

end Metrology.Workspace
