import Metrology.Proofs.Workspace.Registries
import Metrology.Settings

/-!
# Runs of a workspace

Everything that can be done in a workspace, as data: `Workspace.Action`. Performing an action ends
in an outcome or a failure and leaves a workspace either way; a run goes on after failures.

What one action does to the registries is said once, in two theorems:

* `Valid.perform` — registries stay valid, and new ones are;
* `registry_perform` — a registry that exists keeps all the entries that the action does not write,
  or grows by memoizing, when the action is a call of a converter on it that memoizes.

By induction on the run the first holds of runs (`Valid.run`). What a valid registry is like then
holds of every registry that can come about.
-/

namespace Metrology.Workspace

/-- What can be done in a workspace. Registries and converters go by their numbers. -/
inductive Action where
  /-- Makes a registry of definitions. -/
  | seed (linear : List LinearUnit) (nonlinear : List NonlinearUnit)
  /-- Makes a registry of multipliers. -/
  | ofMultipliers (multipliers : SymbolMap Scalar)
  | copy (registry : Nat)
  /-- Makes the registry that settings ask for, from a base or from the built-in one. -/
  | build (settings : Settings) (base : Option Nat)
  | insertLinear (registry : Nat) (symbol : RawText) (multiplier : Scalar)
  | insertNonlinear (registry : Nat) (unit : NonlinearUnit)
  | register (registry : Nat) (unit : LinearUnit)
  | registerNonlinear (registry : Nat) (unit : NonlinearUnit)
  /-- Asks for the default registry. -/
  | currentRegistry
  | appoint (registry : Option Nat)
  /-- Makes a converter on a registry. -/
  | converter (registry : Nat) (preferences : Preferences)
  /-- Asks for the shared converter. -/
  | currentConverter
  | call (converter : Nat) (call : Call)
  /-- A call of the shared converter. -/
  | shortcut (call : Call)

/-- What an action ends in. -/
inductive Outcome where
  | done
  /-- The number of a registry or a converter. -/
  | number (number : Nat)
  | answer (answer : Answer)

/-- Keeps a registry that could be made. -/
def keep (w : Workspace) : Except Failure Registry → Except Failure Outcome × Workspace
  | .ok r => ((w.addRegistry r).map (fun number ↦ .ok (.number number)) id)
  | .error e => (.error e, w)

/-- Writes to a registry. -/
def write (w : Workspace) (number : Nat) (change : Registry → Except Failure Registry) :
    Except Failure Outcome × Workspace :=
  (w.updateRegistry number change).map (Except.map fun _ ↦ .done) id

/-- Puts a call to a converter. -/
def put (w : Workspace) (number : Nat) (call : Call) : Except Failure Outcome × Workspace :=
  (w.use number call.run).map (Except.map Outcome.answer) id

/-- Performs an action. -/
def perform (w : Workspace) : Action → Except Failure Outcome × Workspace
  | .seed linear nonlinear => w.keep ((Registry.seed linear nonlinear).mapError Failure.registry)
  | .ofMultipliers multipliers => w.keep (Registry.ofMultipliers multipliers)
  | .copy number => w.keep (.ok (w.registry number))
  | .build settings base => w.keep (settings.buildRegistry (base.map w.registry))
  | .insertLinear number symbol multiplier => w.write number (·.insertScalar symbol multiplier)
  | .insertNonlinear number unit =>
    w.write number fun r ↦ (r.insertNonlinear unit).mapError Failure.registry
  | .register number unit => w.write number fun r ↦ (r.register unit).mapError Failure.registry
  | .registerNonlinear number unit =>
    w.write number fun r ↦ (r.registerNonlinear unit).mapError Failure.registry
  | .currentRegistry => w.currentRegistry.map (fun number ↦ .ok (.number number)) id
  | .appoint number => (.ok .done, w.appoint number)
  | .converter registry preferences =>
    (w.addConverter registry preferences).map (fun number ↦ .ok (.number number)) id
  | .currentConverter => w.currentConverter.map (fun number ↦ .ok (.number number)) id
  | .call number call => w.put number call
  | .shortcut call => w.currentConverter.2.put w.currentConverter.1 call

/-- Performs actions one after the other, whether they fail or not. -/
def run (w : Workspace) (actions : List Action) : Workspace :=
  actions.foldl (fun w action ↦ (w.perform action).2) w

/-- The registry that a call of a converter may memoize in. -/
def memoizesIn (w : Workspace) (number : Nat) (call : Call) : Option Nat :=
  if call.memoizes (w.station number).preferences then some (w.station number).registry else none

namespace Action

/-- The symbols that an action writes to the registry of a number. -/
def targets (number : Nat) : Action → List RawText
  | insertLinear registry symbol _ => if registry = number then [symbol] else []
  | insertNonlinear registry unit => if registry = number then [unit.symbol] else []
  | register registry unit => if registry = number then unit.symbols else []
  | registerNonlinear registry unit => if registry = number then unit.symbols else []
  | _ => []

/-- The units of the call that an action makes. -/
def units : Action → List (Option RawText)
  | call _ asked | shortcut asked => asked.units
  | _ => []

/-- The registry that an action may memoize in: that of the converter it calls, if the call
memoizes. -/
def memoizesIn (w : Workspace) : Action → Option Nat
  | call number asked => w.memoizesIn number asked
  | shortcut asked => w.currentConverter.2.memoizesIn w.currentConverter.1 asked
  | _ => none

end Action

variable {w w' : Workspace}

theorem run_cons (w : Workspace) (action : Action) (actions : List Action) :
    w.run (action :: actions) = (w.perform action).2.run actions := rfl

/-! ### Registries stay valid -/

theorem valid_of_addUnit {r r' : Registry} {entry : RawText × Scalar} (h : r.Valid)
    (hok : Settings.addUnit r entry = .ok r') : r'.Valid := by
  rw [Settings.addUnit] at hok
  split at hok
  · next hinsert => exact Except.ok.inj hok ▸ h.insertScalar hinsert
  · exact absurd hok (by simp)
  · exact absurd hok (by simp)

theorem valid_of_buildRegistry {settings : Settings} {base : Option Registry} {r : Registry}
    (h : ∀ r, base = some r → r.Valid) (hok : settings.buildRegistry base = .ok r) : r.Valid := by
  have hbase : (base.getD Registry.builtIn).Valid := by
    cases base with
    | none =>
      rw [Option.getD_none]
      exact Registry.valid_builtIn
    | some base => exact h base rfl
  exact foldlM_ok_induction (fun _ _ _ h hstep ↦ valid_of_addUnit h hstep) hbase hok

/-- Every registry is valid. -/
def Valid (w : Workspace) : Prop := ∀ number, (w.registry number).Valid

theorem valid_empty : ({} : Workspace).Valid := fun _ ↦ Registry.valid_empty

theorem Valid.addRegistry (h : w.Valid) {r : Registry} (hr : r.Valid) :
    (w.addRegistry r).2.Valid := fun number ↦ by
  rw [registry_addRegistry]
  split
  · exact hr
  · exact h number

theorem Valid.keep (h : w.Valid) {result : Except Failure Registry}
    (hresult : ∀ r, result = .ok r → r.Valid) : (w.keep result).2.Valid := by
  rcases result with e | r
  · exact h
  · exact h.addRegistry (hresult r rfl)

theorem Valid.write (h : w.Valid) (number : Nat) {change : Registry → Except Failure Registry}
    (hchange : ∀ r r' : Registry, r.Valid → change r = .ok r' → r'.Valid) :
    (w.write number change).2.Valid := fun other ↦ by
  rcases w.registry_updateRegistry number other change with hsame | ⟨-, hok⟩
  · exact hsame ▸ h other
  · exact hchange _ _ (h other) hok

theorem Valid.used (h : w.Valid) {memoize : Bool} (hused : w.Used memoize w') : w'.Valid :=
  fun number ↦ (h number).grows (hused.grows number)

theorem Valid.currentRegistry (h : w.Valid) : w.currentRegistry.2.Valid := by
  rw [Workspace.currentRegistry]
  split
  · exact h
  · exact h.addRegistry Registry.valid_builtIn

/-- Asking for the shared converter changes no registry but may make the default one. -/
theorem registries_currentConverter (w : Workspace) :
    w.currentConverter.2.registries = w.currentRegistry.2.registries := by
  rw [Workspace.currentConverter]
  rcases w.currentRegistry with ⟨registry, w'⟩
  dsimp only
  split
  · split <;> rfl
  · rfl

theorem registry_currentConverter (w : Workspace) (number : Nat) :
    w.currentConverter.2.registry number = w.currentRegistry.2.registry number := by
  rw [registry, registries_currentConverter, registry]

theorem Valid.currentConverter (h : w.Valid) : w.currentConverter.2.Valid :=
  fun number ↦ w.registry_currentConverter number ▸ h.currentRegistry number

theorem Valid.perform (h : w.Valid) (action : Action) : (w.perform action).2.Valid := by
  cases action with
  | seed linear nonlinear =>
    exact h.keep fun r hr ↦ Registry.valid_of_seed (ok_of_mapError_eq_ok hr)
  | ofMultipliers multipliers => exact h.keep fun r hr ↦ Registry.valid_of_ofMultipliers hr
  | copy number => exact h.keep fun r hr ↦ Except.ok.inj hr ▸ h number
  | build settings base =>
    refine h.keep fun r hr ↦ valid_of_buildRegistry (fun r' hbase ↦ ?_) hr
    obtain ⟨number, -, rfl⟩ := Option.map_eq_some_iff.1 hbase
    exact h number
  | insertLinear number symbol multiplier =>
    exact h.write number fun _ _ hr hok ↦ hr.insertScalar hok
  | insertNonlinear number unit =>
    exact h.write number fun _ _ hr hok ↦ hr.insertNonlinear (ok_of_mapError_eq_ok hok)
  | register number unit =>
    exact h.write number fun _ _ hr hok ↦ hr.register (ok_of_mapError_eq_ok hok)
  | registerNonlinear number unit =>
    exact h.write number fun _ _ hr hok ↦ hr.registerNonlinear (ok_of_mapError_eq_ok hok)
  | currentRegistry => exact h.currentRegistry
  | appoint number => exact h
  | converter registry preferences => exact h
  | currentConverter => exact h.currentConverter
  | call number asked => exact h.used (w.used_call number asked)
  | shortcut asked => exact h.currentConverter.used (w.currentConverter.2.used_call _ asked)

theorem Valid.run (h : w.Valid) (actions : List Action) : (w.run actions).Valid := by
  induction actions generalizing w with
  | nil => exact h
  | cons action actions ih => exact ih (h.perform action)

/-- What holds of every registry of a workspace that has come about by any actions, failing ones
included: no symbol stands for two things, every multiplier is finite and not zero, the symbols are
listed in strictly increasing order and are those that the registry contains, its size is their
number, and each of them is found in exactly one way. -/
theorem registry_invariant (actions : List Action) (number : Nat) :
    let r := (({} : Workspace).run actions).registry number
    (∀ symbol, ¬(r.linear.contains symbol = true ∧ r.nonlinear.contains symbol = true)) ∧
      (∀ symbol multiplier, r.linear? symbol = some multiplier →
        multiplier.isZero = false ∧ ∃ x, multiplier.toDouble = .ok x ∧ x.isFinite = true) ∧
      r.symbols.Pairwise (· < ·) ∧
      (∀ symbol, symbol ∈ r.symbols ↔ r.contains symbol = true) ∧
      r.size = r.symbols.length ∧
      ∀ symbol, r.contains symbol = true →
        Xor (r.linear? symbol).isSome (r.nonlinear? symbol).isSome := by
  intro r
  have hvalid : r.Valid := valid_empty.run actions number
  refine ⟨fun symbol hboth ↦ ?_, fun symbol multiplier hsymbol ↦ ?_, hvalid.pairwise_symbols,
    fun symbol ↦ Registry.mem_symbols, r.length_symbols.symm, fun symbol ↦ hvalid.xor_of_contains⟩
  · rcases hvalid.disjoint symbol with hnone | hnone
    · exact absurd hboth.1 (by simp [SymbolMap.contains_eq_false_iff.2 hnone])
    · exact absurd hboth.2 (by simp [SymbolMap.contains_eq_false_iff.2 hnone])
  · have husable := hvalid.usable hsymbol
    exact ⟨Scalar.isZero_of_isUsable husable, Scalar.toDouble_of_isUsable husable⟩

/-! ### What a call is answered -/

/-- The answer to a call of a converter. -/
def answer (w : Workspace) (number : Nat) (call : Call) : Except Failure Answer :=
  (w.use number call.run).1

/-- The number that is answered: a multiplier, or what a value stands for. -/
def numberIn : Except Failure Answer → Option Scalar
  | .ok (.value value) => value.single?
  | .ok (.multiplier multiplier) => some multiplier
  | _ => none

/-- A call is answered from the registry of the converter. -/
theorem answer_eq_answerIn (hw : w.Valid) {number : Nat} {call : Call}
    (hparse : call.parses (w.station number).preferences = true) :
    w.answer number call = call.answerIn (w.registry (w.station number).registry)
      (w.station number).preferences :=
  Call.run_fst call (hw _) hparse

/-! ### What an action leaves of a registry -/

theorem registry_addRegistry_of_lt (w : Workspace) (r : Registry) {number : Nat}
    (hnumber : number < w.registries.length) :
    (w.addRegistry r).2.registry number = w.registry number := by
  rw [registry_addRegistry, if_neg hnumber.ne]

theorem registry_keep_of_lt (w : Workspace) (result : Except Failure Registry) {number : Nat}
    (hnumber : number < w.registries.length) :
    (w.keep result).2.registry number = w.registry number := by
  rcases result with e | r
  · rfl
  · exact w.registry_addRegistry_of_lt r hnumber

theorem registry_currentRegistry_of_lt (w : Workspace) {number : Nat}
    (hnumber : number < w.registries.length) :
    w.currentRegistry.2.registry number = w.registry number := by
  rw [Workspace.currentRegistry]
  split
  · rfl
  · exact w.registry_addRegistry_of_lt _ hnumber

theorem registry_currentConverter_of_lt (w : Workspace) {number : Nat}
    (hnumber : number < w.registries.length) :
    w.currentConverter.2.registry number = w.registry number := by
  rw [registry_currentConverter, w.registry_currentRegistry_of_lt hnumber]

theorem agreesOff_write (w : Workspace) (target number : Nat) {symbols : List RawText}
    {change : Registry → Except Failure Registry}
    (hchange : ∀ r r' : Registry, change r = .ok r' → r.AgreesOff symbols r') :
    (w.registry number).AgreesOff (if target = number then symbols else [])
      ((w.write target change).2.registry number) := by
  rcases w.registry_updateRegistry target number change with hsame | ⟨heq, hok⟩
  · rw [write, Prod.map_snd, id, hsame]
    exact Registry.agreesOff_refl _ _
  · rw [if_pos heq]
    exact hchange _ _ hok

/-- A call leaves a registry as it is, or memoizes its units in it. -/
theorem registry_put (w : Workspace) (target number : Nat) (call : Call) :
    (w.put target call).2.registry number = w.registry number ∨
      w.memoizesIn target call = some number ∧
        (w.registry number).GrowsBy call.units ((w.put target call).2.registry number) := by
  have hused := call.used_run (w.converter target)
  rcases w.registry_use number target call.run with hsame | ⟨rfl, hset⟩
  · exact Or.inl hsame
  · rw [show (w.put target call).2 = (w.use target call.run).2 from rfl, hset]
    rcases hmemoize : call.memoizes (w.station target).preferences with _ | _
    · exact Or.inl (hused.registry_eq hmemoize)
    · refine Or.inr ⟨?_, hused.growsBy⟩
      rw [memoizesIn, hmemoize, if_pos rfl]

theorem agreesOff_of_eq {r r' : Registry} (h : r' = r) (symbols : List RawText) :
    r.AgreesOff symbols r' :=
  h ▸ r.agreesOff_refl symbols

/-- What one action can do to a registry: write to its targets, or memoize its units. -/
theorem registry_perform (w : Workspace) (action : Action) {number : Nat}
    (hnumber : number < w.registries.length) :
    (w.registry number).AgreesOff (action.targets number)
        ((w.perform action).2.registry number) ∨
      action.memoizesIn w = some number ∧
        (w.registry number).GrowsBy action.units ((w.perform action).2.registry number) := by
  cases action with
  | seed | ofMultipliers | copy | build =>
    exact Or.inl (agreesOff_of_eq (w.registry_keep_of_lt _ hnumber) _)
  | insertLinear target symbol multiplier =>
    exact Or.inl (w.agreesOff_write target number fun _ _ ↦ Registry.agreesOff_insertScalar)
  | insertNonlinear target unit =>
    exact Or.inl (w.agreesOff_write target number fun _ _ hok ↦
      Registry.agreesOff_insertNonlinear (ok_of_mapError_eq_ok hok))
  | register target unit =>
    exact Or.inl (w.agreesOff_write target number fun _ _ hok ↦
      Registry.agreesOff_register (ok_of_mapError_eq_ok hok))
  | registerNonlinear target unit =>
    exact Or.inl (w.agreesOff_write target number fun _ _ hok ↦
      Registry.agreesOff_registerNonlinear (ok_of_mapError_eq_ok hok))
  | currentRegistry =>
    exact Or.inl (agreesOff_of_eq (w.registry_currentRegistry_of_lt hnumber) _)
  | appoint | converter => exact Or.inl (Registry.agreesOff_refl _ _)
  | currentConverter =>
    exact Or.inl (agreesOff_of_eq (w.registry_currentConverter_of_lt hnumber) _)
  | call target asked =>
    exact (w.registry_put target number asked).imp_left (agreesOff_of_eq · _)
  | shortcut asked =>
    have hput := w.currentConverter.2.registry_put w.currentConverter.1 number asked
    rw [w.registry_currentConverter_of_lt hnumber] at hput
    exact hput.imp_left (agreesOff_of_eq · _)

theorem length_keep (w : Workspace) (result : Except Failure Registry) :
    w.registries.length ≤ (w.keep result).2.registries.length := by
  rcases result with e | r
  · exact le_rfl
  · exact (List.prefix_append w.registries [r]).length_le

theorem length_write (w : Workspace) (number : Nat) (change : Registry → Except Failure Registry) :
    (w.write number change).2.registries.length = w.registries.length :=
  w.length_updateRegistry number change

theorem length_currentRegistry (w : Workspace) :
    w.registries.length ≤ w.currentRegistry.2.registries.length := by
  rw [Workspace.currentRegistry]
  split
  · exact le_rfl
  · exact (List.prefix_append w.registries [Registry.builtIn]).length_le

/-- Registries are never given up. -/
theorem length_perform (w : Workspace) (action : Action) :
    w.registries.length ≤ (w.perform action).2.registries.length := by
  have hcurrent : w.registries.length ≤ w.currentConverter.2.registries.length := by
    rw [registries_currentConverter]
    exact w.length_currentRegistry
  cases action with
  | seed | ofMultipliers | copy | build => exact w.length_keep _
  | insertLinear | insertNonlinear | register | registerNonlinear =>
    exact (w.length_write _ _).ge
  | currentRegistry => exact w.length_currentRegistry
  | appoint | converter => exact le_rfl
  | currentConverter => exact hcurrent
  | call target asked => exact (w.used_call target asked).length_eq.ge
  | shortcut asked =>
    exact hcurrent.trans (w.currentConverter.2.used_call w.currentConverter.1 asked).length_eq.ge

end Metrology.Workspace
