import Metrology.Proofs.Converter.Twin
import Metrology.Proofs.Workspace.Isolation

/-!
# The default registry

Two things are kept for the whole workspace, the number of the default registry and the number of a
shared converter, each made when it is first asked for. They stay in step:

* the default registry changes only when another one is appointed (`defaultRegistry_perform`), so it
  is one and the same in between, and a new one with the built-in units after none is appointed;
* a call of the shared converter goes to the registry that is the default at that moment, and to no
  other (`Intact.goesTo_shortcut`);
* a call of any other converter goes to the registry that it was made on
  (`Intact.goesTo_call`).

That these registries are there at all is an invariant (`Intact`): it holds of every workspace that
comes about by actions in which each number stands for something (`Intact.run`).
-/

namespace Metrology.Workspace

variable {w w' : Workspace} {number : Nat}

/-! ### Numbers that stand for something -/

/-- The registries and the converter that an action names are there. -/
def Action.refers (w : Workspace) : Action → Bool
  | copy registry | insertLinear registry _ _ | insertNonlinear registry _ | register registry _
  | registerNonlinear registry _ | converter registry _ => decide (registry < w.registries.length)
  | build _ registry | appoint registry =>
    registry.all fun registry ↦ decide (registry < w.registries.length)
  | call number _ => decide (number < w.stations.length)
  | _ => true

/-- In a run every action names what is there when it is performed. -/
def refers (w : Workspace) : List Action → Bool
  | [] => true
  | action :: actions => action.refers w && refers (w.perform action).2 actions

/-- Converters are on registries that are there, and so is the default registry, if there is one.
The shared converter has the preferences that a converter has by default. -/
structure Intact (w : Workspace) : Prop where
  station : ∀ k, k < w.stations.length → (w.station k).registry < w.registries.length
  default : ∀ number, w.defaultRegistry = some number → number < w.registries.length
  shared : ∀ k, w.sharedStation = some k →
    k < w.stations.length ∧ (w.station k).preferences = {}

namespace Intact

theorem empty : ({} : Workspace).Intact :=
  ⟨fun _ hk ↦ absurd hk (Nat.not_lt_zero _), fun _ h ↦ absurd h (by simp),
    fun _ h ↦ absurd h (by simp)⟩

/-- At most registries have been made or changed. -/
theorem of_stations_eq (h : w.Intact) (hlength : w.registries.length ≤ w'.registries.length)
    (hstations : w'.stations = w.stations)
    (hdefault : ∀ number, w'.defaultRegistry = some number →
      w.defaultRegistry = some number ∨ number < w'.registries.length)
    (hshared : w'.sharedStation = w.sharedStation) : w'.Intact := by
  have hstation : ∀ k, w'.station k = w.station k := fun k ↦ by
    rw [Workspace.station, hstations, Workspace.station]
  refine ⟨fun k hk ↦ ?_, fun number hnumber ↦ ?_, fun k hk ↦ ?_⟩
  · rw [hstations] at hk
    rw [hstation]
    exact (h.station k hk).trans_le hlength
  · rcases hdefault number hnumber with hsame | hlt
    · exact (h.default number hsame).trans_le hlength
    · exact hlt
  · rw [hshared] at hk
    rw [hstations, hstation]
    exact h.shared k hk

theorem keep (h : w.Intact) (result : Except Failure Registry) : (w.keep result).2.Intact := by
  refine h.of_stations_eq (w.length_keep result) (w.stations_keep result) (fun _ hsame ↦ ?_) ?_
  · rcases result with e | r <;> exact Or.inl hsame
  · rcases result with e | r <;> rfl

theorem write (h : w.Intact) (target : Nat) (change : Registry → Except Failure Registry) :
    (w.write target change).2.Intact := by
  refine h.of_stations_eq (w.length_write target change).ge (w.stations_write target change)
    (fun _ hsame ↦ ?_) ?_
  · rw [Workspace.write, updateRegistry] at hsame
    split at hsame <;> exact Or.inl hsame
  · rw [Workspace.write, updateRegistry]
    split <;> rfl

theorem appoint (h : w.Intact) {registry : Option Nat}
    (hregistry : ∀ number, registry = some number → number < w.registries.length) :
    (w.appoint registry).Intact :=
  ⟨h.station, hregistry, h.shared⟩

theorem addConverter (h : w.Intact) {registry : Nat} (hregistry : registry < w.registries.length)
    (preferences : Preferences) : (w.addConverter registry preferences).2.Intact := by
  have hlength : (w.addConverter registry preferences).2.stations.length = w.stations.length + 1 :=
    List.length_append
  refine ⟨fun k hk ↦ ?_, h.default, fun k hk ↦ ?_⟩
  · rw [hlength] at hk
    rw [station_addConverter]
    split
    · exact hregistry
    · exact h.station k (by omega)
  · obtain ⟨hlt, hpreferences⟩ := h.shared k hk
    rw [hlength, station_addConverter, if_neg hlt.ne]
    exact ⟨hlt.trans (Nat.lt_succ_self _), hpreferences⟩

theorem currentRegistry (h : w.Intact) :
    w.currentRegistry.2.Intact ∧ w.currentRegistry.1 < w.currentRegistry.2.registries.length := by
  rw [Workspace.currentRegistry]
  split
  · next number hnumber => exact ⟨h, h.default number hnumber⟩
  · have hlength : (w.addRegistry Registry.builtIn).2.registries.length = w.registries.length + 1 :=
      List.length_append
    have hnew : w.registries.length < (w.addRegistry Registry.builtIn).2.registries.length :=
      hlength ▸ Nat.lt_succ_self _
    refine ⟨h.of_stations_eq hnew.le rfl (fun number hnumber ↦ ?_) rfl, hnew⟩
    obtain rfl : w.registries.length = number := Option.some_inj.1 hnumber
    exact Or.inr hnew

theorem renewShared (h : w.Intact) {registry : Nat} (hregistry : registry < w.registries.length) :
    (w.renewShared registry).2.Intact := by
  have hadded := h.addConverter hregistry {}
  refine ⟨hadded.station, hadded.default, fun k hk ↦ ?_⟩
  obtain rfl : w.stations.length = k := Option.some_inj.1 hk
  have hstation := w.station_addConverter registry {} w.stations.length
  rw [if_pos rfl] at hstation
  have hlength : (w.renewShared registry).2.stations.length = w.stations.length + 1 :=
    List.length_append
  exact ⟨hlength ▸ Nat.lt_succ_self _, congrArg Station.preferences hstation⟩

theorem currentConverter (h : w.Intact) : w.currentConverter.2.Intact := by
  obtain ⟨hintact, hlt⟩ := h.currentRegistry
  rw [Workspace.currentConverter]
  generalize w.currentRegistry = current at hintact hlt ⊢
  obtain ⟨registry, after⟩ := current
  dsimp only at hintact hlt ⊢
  split
  · split
    · exact hintact
    · exact hintact.renewShared hlt
  · exact hintact.renewShared hlt

theorem put (h : w.Intact) (target : Nat) (call : Call) : (w.put target call).2.Intact := by
  have hlength : (w.put target call).2.registries.length = w.registries.length := List.length_set
  have hstations : (w.put target call).2.stations.length = w.stations.length := List.length_set
  refine ⟨fun k hk ↦ ?_, fun number hnumber ↦ hlength ▸ h.default number hnumber, fun k hk ↦ ?_⟩
  · rw [station_put_registry, hlength]
    exact h.station k (hstations ▸ hk)
  · obtain ⟨hlt, hpreferences⟩ := h.shared k hk
    exact ⟨hstations ▸ hlt, (w.station_use k target call.run).2.trans hpreferences⟩

theorem perform (h : w.Intact) {action : Action} (hrefers : action.refers w = true) :
    (w.perform action).2.Intact := by
  cases action with
  | seed | ofMultipliers | copy | build => exact h.keep _
  | insertLinear | insertNonlinear | register | registerNonlinear => exact h.write _ _
  | currentRegistry => exact h.currentRegistry.1
  | appoint registry =>
    refine h.appoint fun number hnumber ↦ ?_
    rw [Action.refers, hnumber] at hrefers
    exact of_decide_eq_true hrefers
  | converter registry preferences => exact h.addConverter (of_decide_eq_true hrefers) preferences
  | currentConverter => exact h.currentConverter
  | call target asked => exact h.put target asked
  | shortcut asked => exact h.currentConverter.put _ asked

theorem run (h : w.Intact) {actions : List Action} (hrefers : w.refers actions = true) :
    (w.run actions).Intact := by
  induction actions generalizing w with
  | nil => exact h
  | cons action actions ih =>
    rw [refers, Bool.and_eq_true] at hrefers
    exact ih (h.perform hrefers.1) hrefers.2

end Intact

/-! ### Which registry is the default one -/

namespace Action

/-- The action appoints a default registry, or none. -/
def appoints : Action → Bool
  | appoint _ => true
  | _ => false

/-- The action asks for the default registry. -/
def usesDefault : Action → Bool
  | currentRegistry | currentConverter | shortcut _ => true
  | _ => false

end Action

/-- The number of the default registry, or that of the one that is made when it is asked for. -/
def defaultNumber (w : Workspace) : Nat := w.defaultRegistry.getD w.registries.length

/-- What is in the default registry, or will be when it is asked for. -/
def defaultContents (w : Workspace) : Registry :=
  (w.defaultRegistry.map w.registry).getD Registry.builtIn

/-- Asking for the default registry gives it, and changes no other one. -/
theorem currentRegistry_spec (w : Workspace) :
    w.currentRegistry.1 = w.defaultNumber ∧
      w.currentRegistry.2.defaultRegistry = some w.defaultNumber ∧
      w.currentRegistry.2.registry w.defaultNumber = w.defaultContents ∧
      ∀ other, other ≠ w.defaultNumber →
        w.currentRegistry.2.registry other = w.registry other := by
  rw [Workspace.currentRegistry, defaultNumber, defaultContents]
  rcases hdefault : w.defaultRegistry with _ | number
  · simp only [Option.map_none, Option.getD_none]
    refine ⟨rfl, rfl, ?_, fun other hne ↦ ?_⟩
    · exact (w.registry_addRegistry Registry.builtIn _).trans (if_pos rfl)
    · exact (w.registry_addRegistry Registry.builtIn other).trans (if_neg hne)
  · exact ⟨rfl, hdefault, rfl, fun _ _ ↦ rfl⟩

theorem defaultRegistry_currentConverter (w : Workspace) :
    w.currentConverter.2.defaultRegistry = some w.defaultNumber := by
  obtain ⟨-, hdefault, -⟩ := w.currentRegistry_spec
  rw [Workspace.currentConverter]
  generalize w.currentRegistry = current at hdefault ⊢
  obtain ⟨registry, after⟩ := current
  dsimp only at hdefault ⊢
  split
  · split <;> exact hdefault
  · exact hdefault

/-- The default registry after an action: the one that is appointed, the one that is used, or the
one that it was. -/
theorem defaultRegistry_perform (w : Workspace) (action : Action) :
    (∀ registry, action = .appoint registry → (w.perform action).2.defaultRegistry = registry) ∧
      (action.usesDefault = true →
        (w.perform action).2.defaultRegistry = some w.defaultNumber) ∧
      (action.appoints = false → action.usesDefault = false →
        (w.perform action).2.defaultRegistry = w.defaultRegistry) := by
  have hkeep : ∀ result, (w.keep result).2.defaultRegistry = w.defaultRegistry := fun result ↦ by
    rcases result with e | r <;> rfl
  have hwrite : ∀ target change, (w.write target change).2.defaultRegistry = w.defaultRegistry :=
    fun target change ↦ by
      rw [Workspace.write, updateRegistry]
      split <;> rfl
  refine ⟨fun registry hregistry ↦ hregistry ▸ rfl, fun huses ↦ ?_, fun happoints huses ↦ ?_⟩
  · cases action with
    | currentRegistry => exact w.currentRegistry_spec.2.1
    | currentConverter | shortcut => exact w.defaultRegistry_currentConverter
    | _ => exact absurd huses (by simp [Action.usesDefault])
  · cases action with
    | seed | ofMultipliers | copy | build => exact hkeep _
    | insertLinear | insertNonlinear | register | registerNonlinear => exact hwrite _ _
    | converter | call => rfl
    | appoint => exact absurd happoints (by simp [Action.appoints])
    | currentRegistry | currentConverter | shortcut =>
      exact absurd huses (by simp [Action.usesDefault])

/-- Once there is a default registry, it is the same until another one is appointed. -/
theorem defaultRegistry_run {actions : List Action} (hdefault : w.defaultRegistry = some number)
    (happoints : ∀ action ∈ actions, action.appoints = false) :
    (w.run actions).defaultRegistry = some number := by
  induction actions generalizing w with
  | nil => exact hdefault
  | cons action actions ih =>
    obtain ⟨hfirst, hrest⟩ := List.forall_mem_cons.1 happoints
    obtain ⟨-, hused, hkept⟩ := w.defaultRegistry_perform action
    refine ih ?_ hrest
    rcases huses : action.usesDefault with _ | _
    · exact (hkept hfirst huses).trans hdefault
    · rw [hused huses, defaultNumber, hdefault, Option.getD_some]

/-- While the default registry is not used, there is still none. -/
theorem defaultRegistry_run_of_none {actions : List Action} (hdefault : w.defaultRegistry = none)
    (hunused : ∀ action ∈ actions, action.appoints = false ∧ action.usesDefault = false) :
    (w.run actions).defaultRegistry = none := by
  induction actions generalizing w with
  | nil => exact hdefault
  | cons action actions ih =>
    obtain ⟨⟨happoints, huses⟩, hrest⟩ := List.forall_mem_cons.1 hunused
    exact ih (((w.defaultRegistry_perform action).2.2 happoints huses).trans hdefault) hrest

/-! ### Where a call goes -/

/-- An action makes a call of one registry: the call is answered from what is in this registry,
with some preferences, it leaves in it what it memoizes, and it leaves all others as they are. -/
structure GoesTo (w : Workspace) (action : Action) (call : Call) (preferences : Preferences)
    (number : Nat) (r : Registry) : Prop where
  outcome_eq : (w.perform action).1 =
    (call.run { registry := r, preferences }).1.map Outcome.answer
  registry_eq : (w.perform action).2.registry number =
    (call.run { registry := r, preferences }).2.registry
  others : ∀ other, other ≠ number → (w.perform action).2.registry other = w.registry other

theorem goesTo_call {k : Nat} (hregistry : (w.station k).registry < w.registries.length)
    (call : Call) :
    w.GoesTo (.call k call) call (w.station k).preferences (w.station k).registry
      (w.registry (w.station k).registry) := by
  have htwin : Converter.Twin
      { registry := w.registry (w.station k).registry, preferences := (w.station k).preferences }
      (w.converter k) := ⟨rfl, rfl⟩
  obtain ⟨hanswer, hleft⟩ := Call.run_sameBut htwin call
  refine ⟨congrArg (Except.map Outcome.answer) hanswer, ?_, fun other hne ↦ ?_⟩
  · rw [← hleft.registry_eq]
    exact (w.registry_put_eq k call _).trans (if_pos ⟨rfl, hregistry⟩)
  · exact w.registry_put_of_ne k call hne.symm

/-- The converter that is asked for is the shared one. -/
theorem sharedStation_currentConverter (w : Workspace) :
    w.currentConverter.2.sharedStation = some w.currentConverter.1 := by
  rw [Workspace.currentConverter]
  rcases w.currentRegistry with ⟨registry, after⟩
  dsimp only
  split
  · next k hshared =>
    split
    · exact hshared
    · rfl
  · rfl

/-- A call of the shared converter goes to the default registry. -/
theorem Intact.goesTo_shortcut (h : w.Intact) (call : Call) :
    w.GoesTo (.shortcut call) call {} w.defaultNumber w.defaultContents := by
  let after := w.currentConverter.2
  let k := w.currentConverter.1
  obtain ⟨hnumber, -, hcontents, hothers⟩ := w.currentRegistry_spec
  have hintact : after.Intact := h.currentConverter
  obtain ⟨hk, hpreferences⟩ := hintact.shared k w.sharedStation_currentConverter
  have hregistry : (after.station k).registry = w.defaultNumber :=
    w.station_currentConverter.trans hnumber
  have hcall : after.GoesTo (.call k call) call (after.station k).preferences
      (after.station k).registry (after.registry (after.station k).registry) :=
    goesTo_call (hintact.station k hk) call
  have hbefore : after.registry w.defaultNumber = w.defaultContents :=
    (w.registry_currentConverter _).trans hcontents
  rw [hpreferences, hregistry, hbefore] at hcall
  refine ⟨hcall.outcome_eq, hcall.registry_eq, fun other hne ↦ ?_⟩
  exact (hcall.others other hne).trans ((w.registry_currentConverter other).trans
    (hothers other hne))

theorem station_preferences_perform (w : Workspace) (action : Action) {k : Nat}
    (hk : k < w.stations.length) :
    ((w.perform action).2.station k).preferences = (w.station k).preferences := by
  rcases hasked : action.asked w with _ | asked
  · exact congrArg Station.preferences ((enlists_perform hasked).station_eq hk)
  · have hused := asked.before.used_call asked.number asked.call
    rw [perform_of_asked hasked, hused.station_preferences, (enlists_before hasked).station_eq hk]

/-- A converter keeps its registry and its preferences along a run. -/
theorem station_run {k : Nat} (hk : k < w.stations.length) (actions : List Action) :
    k < (w.run actions).stations.length ∧
      ((w.run actions).station k).registry = (w.station k).registry ∧
      ((w.run actions).station k).preferences = (w.station k).preferences := by
  induction actions generalizing w with
  | nil => exact ⟨hk, rfl, rfl⟩
  | cons action actions ih =>
    obtain ⟨hk', hregistry⟩ := w.station_registry_perform action hk
    obtain ⟨hlast, hregistry', hpreferences⟩ := ih hk'
    exact ⟨hlast, hregistry'.trans hregistry,
      hpreferences.trans (w.station_preferences_perform action hk)⟩

/-- A call of a converter that has been made before a run goes to the registry that it was made on.
-/
theorem Intact.goesTo_call (h : w.Intact) {actions : List Action}
    (hrefers : w.refers actions = true) {k : Nat} (hk : k < w.stations.length) (call : Call) :
    (w.run actions).GoesTo (.call k call) call (w.station k).preferences (w.station k).registry
      ((w.run actions).registry (w.station k).registry) := by
  obtain ⟨hlast, hregistry, hpreferences⟩ := station_run hk actions
  have hcall := Workspace.goesTo_call ((h.run hrefers).station k hlast) call
  rw [hregistry, hpreferences] at hcall
  exact hcall

/-! ### In step -/

/-- **The default registry and the shared converter are in step.** In a workspace that has come
about by any actions, each of which names what is there:

* a call of the shared converter goes to the registry that is the default now, which is the one that
  is given when it is asked for;
* this is the same one until another one is appointed;
* after none is appointed, the next use finds a new registry with the built-in units and nothing
  else, whatever has been done in between without using it;
* a call of any converter that is there goes to the registry that the converter was made on,
  whatever has been done since. -/
theorem default_in_step {before : List Action} (hbefore : ({} : Workspace).refers before = true) :
    let w := ({} : Workspace).run before
    ((w.perform .currentRegistry).1 = .ok (.number w.defaultNumber) ∧
        ∀ call, w.GoesTo (.shortcut call) call {} w.defaultNumber w.defaultContents) ∧
      (∀ actions, (∀ action ∈ actions, action.appoints = false) →
        (((w.perform .currentRegistry).2.run actions).perform .currentRegistry).1 =
          (w.perform .currentRegistry).1) ∧
      (∀ actions, (∀ action ∈ actions, action.appoints = false ∧ action.usesDefault = false) →
        (w.appoint none).refers actions = true →
          let after := (w.appoint none).run actions
          let fresh := after.registries.length
          (after.perform .currentRegistry).1 = .ok (.number fresh) ∧
            (after.perform .currentRegistry).2.registry fresh = Registry.builtIn ∧
            ∀ call, after.GoesTo (.shortcut call) call {} fresh Registry.builtIn) ∧
      ∀ k, k < w.stations.length → ∀ actions, w.refers actions = true →
        ∀ call, (w.run actions).GoesTo (.call k call) call (w.station k).preferences
          (w.station k).registry ((w.run actions).registry (w.station k).registry) := by
  intro w
  have hintact : w.Intact := Intact.empty.run hbefore
  have hcurrent : ∀ v : Workspace,
      (v.perform .currentRegistry).1 = .ok (.number v.defaultNumber) := fun v ↦
    congrArg (fun number ↦ Except.ok (Outcome.number number)) v.currentRegistry_spec.1
  refine ⟨⟨hcurrent w, hintact.goesTo_shortcut⟩, fun actions happoints ↦ ?_,
    fun actions hunused hrefers ↦ ?_, fun k hk actions hrefers call ↦
      hintact.goesTo_call hrefers hk call⟩
  · have hdefault : ((w.perform .currentRegistry).2.run actions).defaultRegistry =
        some w.defaultNumber := defaultRegistry_run w.currentRegistry_spec.2.1 happoints
    rw [hcurrent, hcurrent, defaultNumber, hdefault, Option.getD_some]
  · intro after fresh
    have hnone : after.defaultRegistry = none := defaultRegistry_run_of_none rfl hunused
    have hnumber : after.defaultNumber = fresh := by rw [defaultNumber, hnone, Option.getD_none]
    have hcontents : after.defaultContents = Registry.builtIn := by
      rw [defaultContents, hnone, Option.map_none, Option.getD_none]
    have hintact' : after.Intact :=
      (hintact.appoint fun _ h ↦ absurd h (by simp)).run hrefers
    have hseeded := after.currentRegistry_spec.2.2.1
    rw [hnumber, hcontents] at hseeded
    refine ⟨hnumber ▸ hcurrent after, hseeded, fun call ↦ ?_⟩
    have hgoes := hintact'.goesTo_shortcut call
    rw [hnumber, hcontents] at hgoes
    exact hgoes

/-- A registry of units of length. -/
def lengths : Action := .ofMultipliers ⟨[("km", .double 1000), ("m", .double 1)], by decide⟩

/-- A default registry is appointed and used, and then another one is appointed. -/
def replaced : List Action :=
  [lengths, .appoint (some 0), .shortcut areaCall, lengths, .appoint (some 1)]

/-- The first registry is used through the converter that was the shared one. -/
def oldConverter : List Action := [.call 0 areaCall]

theorem default_in_step_replaced :
    (({} : Workspace).refers replaced = true ∧
        (∀ action ∈ oldConverter, action.appoints = false ∧ action.usesDefault = false) ∧
        ((({} : Workspace).run replaced).appoint none).refers oldConverter = true) ∧
      let w := ({} : Workspace).run replaced
      let after := (w.appoint none).run oldConverter
      w.GoesTo (.shortcut areaCall) areaCall {} 1 (w.registry 1) ∧
        (after.perform .currentRegistry).1 = .ok (.number 2) ∧
        after.GoesTo (.shortcut areaCall) areaCall {} 2 Registry.builtIn ∧
        (w.run oldConverter).GoesTo (.call 0 areaCall) areaCall (w.station 0).preferences 0
          ((w.run oldConverter).registry 0) := by
  have hbefore : ({} : Workspace).refers replaced = true := by decide +kernel
  have hunused : ∀ action ∈ oldConverter, action.appoints = false ∧ action.usesDefault = false := by
    decide +kernel
  have hrefers : ((({} : Workspace).run replaced).appoint none).refers oldConverter = true := by
    decide +kernel
  refine ⟨⟨hbefore, hunused, hrefers⟩, ?_⟩
  intro w after
  obtain ⟨⟨-, hshortcut⟩, -, hreset, hcalls⟩ := default_in_step hbefore
  have hdefault : w.defaultRegistry = some 1 := by decide +kernel
  have hlength : after.registries.length = 2 := by decide +kernel
  have hregistry : (w.station 0).registry = 0 := by decide +kernel
  have happointed := hshortcut areaCall
  rw [defaultNumber, defaultContents, hdefault, Option.map_some, Option.getD_some,
    Option.getD_some] at happointed
  obtain ⟨hnumber, -, hfresh⟩ := hreset oldConverter hunused hrefers
  have hold := hcalls 0 (by decide +kernel) oldConverter (by decide +kernel) areaCall
  rw [hregistry] at hold
  rw [hlength] at hnumber hfresh
  exact ⟨happointed, hnumber, hfresh areaCall, hold⟩

end Metrology.Workspace
