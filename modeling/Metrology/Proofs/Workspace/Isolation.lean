import Metrology.Proofs.Converter.Entries
import Metrology.Proofs.Workspace.Ledger

/-!
# Registries do not meet

An action is on one registry at most (`Action.subject`): it writes to it, or it calls a converter
that holds it. Two things follow.

* **Frame.** Every other registry stays as it is (`registry_perform_of_subject_ne`).
* **As if alone.** From a run leave out what is done on other registries (`apart`), and keep only
  that numbers are taken by what is made there. The registry ends as before, and what is done on it
  has the same outcomes. This is carried by a relation of two workspaces that look the same from one
  registry (`AlikeAt`), which an action on the registry preserves when it is performed in both, and
  an action on another one when it is performed in one of them.

A copy has a number of its own, so it and its original are two registries in this sense. Converters
on one registry are the opposite case: what one of them memoizes the other one answers from
(`answersBy_of_linear?`).
-/

namespace Metrology

namespace Workspace

variable {w w' : Workspace} {number target : Nat}

/-! ### What an action is on -/

/-- The registry that an action is on: the one it writes to, or that of the converter it calls.
Making registries and converters is on none. -/
def Action.subject (w : Workspace) : Action → Option Nat
  | insertLinear number _ _ | insertNonlinear number _ | register number _
  | registerNonlinear number _ => some number
  | call number _ => some (w.station number).registry
  | shortcut _ => some w.currentRegistry.1
  | _ => none

/-! ### The shared converter -/

theorem station_addConverter (w : Workspace) (registry : Nat) (preferences : Preferences)
    (number : Nat) :
    (w.addConverter registry preferences).2.station number =
      if number = w.stations.length then ⟨registry, preferences, {}⟩ else w.station number := by
  show ((w.stations ++ [⟨registry, preferences, {}⟩])[number]?).getD { registry := 0 } = _
  rcases lt_trichotomy number w.stations.length with hlt | heq | hgt
  · rw [List.getElem?_append_left hlt, if_neg hlt.ne]
    rfl
  · rw [heq, if_pos rfl, List.getElem?_concat_length]
    rfl
  · rw [if_neg hgt.ne', station, List.getElem?_eq_none (List.length_append.trans_le hgt),
      List.getElem?_eq_none hgt.le]

/-- The shared converter is on the default registry. -/
theorem station_currentConverter (w : Workspace) :
    (w.currentConverter.2.station w.currentConverter.1).registry = w.currentRegistry.1 := by
  rw [currentConverter]
  rcases w.currentRegistry with ⟨registry, w'⟩
  have hrenewed : ((w'.renewShared registry).2.station (w'.renewShared registry).1).registry =
      registry := by
    have hstation := w'.station_addConverter registry {} w'.stations.length
    rw [if_pos rfl] at hstation
    exact congrArg Station.registry hstation
  dsimp only
  split
  · split
    · next hsame => exact hsame
    · exact hrenewed
  · exact hrenewed

/-! ### The frame -/

theorem registry_put_eq (w : Workspace) (target : Nat) (call : Call) (number : Nat) :
    (w.put target call).2.registry number =
      if (w.station target).registry = number ∧ (w.station target).registry < w.registries.length
      then (call.run (w.converter target)).2.registry else w.registry number :=
  getElem?_set_getD _ _ _ _ _

theorem station_put (w : Workspace) (target : Nat) (call : Call) (number : Nat) :
    (w.put target call).2.station number =
      if target = number ∧ target < w.stations.length
      then { w.station target with statistics := (call.run (w.converter target)).2.statistics }
      else w.station number :=
  getElem?_set_getD _ _ _ _ _

theorem station_put_registry (w : Workspace) (target : Nat) (call : Call) (number : Nat) :
    ((w.put target call).2.station number).registry = (w.station number).registry :=
  (w.station_use number target call.run).1

theorem registry_put_of_ne (w : Workspace) (target : Nat) (call : Call)
    (hne : (w.station target).registry ≠ number) :
    (w.put target call).2.registry number = w.registry number :=
  (w.registry_use number target call.run).resolve_right fun h ↦ hne h.1

/-- An action changes no registry but the one that it is on. -/
theorem registry_perform_of_subject_ne {action : Action} (hnumber : number < w.registries.length)
    (hsubject : action.subject w ≠ some number) :
    (w.perform action).2.registry number = w.registry number := by
  cases action with
  | seed | ofMultipliers | copy | build => exact w.registry_keep_of_lt _ hnumber
  | insertLinear | insertNonlinear | register | registerNonlinear =>
    exact w.registry_write_of_ne (fun heq ↦ hsubject (congrArg some heq)) _
  | currentRegistry => exact w.registry_currentRegistry_of_lt hnumber
  | appoint | converter => rfl
  | currentConverter => exact w.registry_currentConverter_of_lt hnumber
  | call target asked =>
    exact w.registry_put_of_ne target asked fun heq ↦ hsubject (congrArg some heq)
  | shortcut asked =>
    have hshared : (w.currentConverter.2.station w.currentConverter.1).registry ≠ number := by
      rw [station_currentConverter]
      exact fun heq ↦ hsubject (congrArg some heq)
    exact (registry_put_of_ne _ _ asked hshared).trans (w.registry_currentConverter_of_lt hnumber)

/-! ### Leaving out what is done elsewhere -/

/-- What is left of an action when it is not on the registry of a number: it takes the numbers that
it takes. A call of the shared converter makes this converter, and a registry that is built from
another one is there, whatever it holds. -/
def Action.apart (w : Workspace) (number : Nat) : Action → List Action
  | shortcut asked =>
    if w.currentRegistry.1 = number then [shortcut asked] else [currentConverter]
  | build settings (some base) =>
    if base = number then [build settings (some base)]
    else
      match settings.buildRegistry (some (w.registry base)) with
      | .ok _ => [copy base]
      | .error _ => []
  | action => if action.subject w = none ∨ action.subject w = some number then [action] else []

/-- A run without what is done on other registries than that of a number. -/
def apart (w : Workspace) (number : Nat) : List Action → List Action
  | [] => []
  | action :: actions => action.apart w number ++ apart (w.perform action).2 number actions

/-- The outcomes of what is done on the registry of a number, in the order of the run. -/
def outcomesOn (w : Workspace) (number : Nat) : List Action → List (Except Failure Outcome)
  | [] => []
  | action :: actions =>
    (if action.subject w = some number then [(w.perform action).1] else []) ++
      outcomesOn (w.perform action).2 number actions

/-- What is left of an action is one action, on the registry or on none, or nothing. -/
theorem apart_cases (w : Workspace) (number : Nat) (action : Action) :
    action.apart w number = [] ∨ ∃ left, action.apart w number = [left] ∧
      (left.subject w = none ∨ left.subject w = some number) := by
  cases action with
  | seed | ofMultipliers | copy | currentRegistry | appoint | converter | currentConverter =>
    exact Or.inr ⟨_, rfl, Or.inl rfl⟩
  | build settings base =>
    rcases base with _ | base
    · exact Or.inr ⟨_, rfl, Or.inl rfl⟩
    · rw [Action.apart]
      split
      · exact Or.inr ⟨_, rfl, Or.inl rfl⟩
      · split
        · exact Or.inr ⟨_, rfl, Or.inl rfl⟩
        · exact Or.inl rfl
  | insertLinear | insertNonlinear | register | registerNonlinear | call =>
    simp only [Action.apart]
    split
    · next hsubject => exact Or.inr ⟨_, rfl, hsubject⟩
    · exact Or.inl rfl
  | shortcut asked =>
    rw [Action.apart]
    split
    · next heq => exact Or.inr ⟨_, rfl, Or.inr (congrArg some heq)⟩
    · exact Or.inr ⟨_, rfl, Or.inl rfl⟩

theorem run_append (w : Workspace) (actions actions' : List Action) :
    w.run (actions ++ actions') = (w.run actions).run actions' := by
  rw [run, List.foldl_append]
  rfl

theorem outcomesOn_append (w : Workspace) (number : Nat) (actions actions' : List Action) :
    w.outcomesOn number (actions ++ actions') =
      w.outcomesOn number actions ++ (w.run actions).outcomesOn number actions' := by
  induction actions generalizing w with
  | nil => rfl
  | cons action actions ih => rw [List.cons_append, outcomesOn, outcomesOn, ih, run_cons,
      List.append_assoc]

/-! ### Two workspaces that look the same from one registry -/

/-- Two workspaces with the same numbers, in which one registry and all converters on it are the
same. -/
structure AlikeAt (number : Nat) (w w' : Workspace) : Prop where
  registry_eq : w'.registry number = w.registry number
  length_eq : w'.registries.length = w.registries.length
  stations_length_eq : w'.stations.length = w.stations.length
  station_registry : ∀ k, (w'.station k).registry = (w.station k).registry
  station_eq : ∀ k, (w.station k).registry = number → w'.station k = w.station k
  default_eq : w'.defaultRegistry = w.defaultRegistry
  shared_eq : w'.sharedStation = w.sharedStation

namespace AlikeAt

theorem refl (number : Nat) (w : Workspace) : AlikeAt number w w :=
  ⟨rfl, rfl, rfl, fun _ ↦ rfl, fun _ _ ↦ rfl, rfl, rfl⟩

/-- A registry is made in both. -/
theorem addRegistry (h : AlikeAt number w w') (hnumber : number < w.registries.length)
    (r r' : Registry) : AlikeAt number (w.addRegistry r).2 (w'.addRegistry r').2 where
  registry_eq := by
    rw [registry_addRegistry_of_lt w r hnumber,
      registry_addRegistry_of_lt w' r' (h.length_eq ▸ hnumber), h.registry_eq]
  length_eq := by
    show (w'.registries ++ [r']).length = (w.registries ++ [r]).length
    rw [List.length_append, List.length_append, h.length_eq, List.length_singleton,
      List.length_singleton]
  stations_length_eq := h.stations_length_eq
  station_registry := h.station_registry
  station_eq := h.station_eq
  default_eq := h.default_eq
  shared_eq := h.shared_eq

theorem keep (h : AlikeAt number w w') (hnumber : number < w.registries.length)
    (result : Except Failure Registry) : AlikeAt number (w.keep result).2 (w'.keep result).2 := by
  rcases result with e | r
  · exact h
  · exact h.addRegistry hnumber r r

/-- The registry is written to in both. -/
theorem write (h : AlikeAt number w w') (change : Registry → Except Failure Registry) :
    (w'.write number change).1 = (w.write number change).1 ∧
      AlikeAt number (w.write number change).2 (w'.write number change).2 := by
  rw [Workspace.write, Workspace.write, updateRegistry, updateRegistry, h.registry_eq]
  rcases change (w.registry number) with e | r
  · exact ⟨rfl, h⟩
  · refine ⟨rfl, ?_, ?_, h.stations_length_eq, h.station_registry, h.station_eq, h.default_eq,
      h.shared_eq⟩
    · show ((w'.registries.set number r)[number]?).getD ∅ =
        ((w.registries.set number r)[number]?).getD ∅
      rw [getElem?_set_getD, getElem?_set_getD, h.length_eq]
      exact if_congr Iff.rfl rfl h.registry_eq
    · show (w'.registries.set number r).length = (w.registries.set number r).length
      rw [List.length_set, List.length_set, h.length_eq]

/-- Another registry is written to in one of them. -/
theorem write_left (h : AlikeAt number w w') (hne : target ≠ number)
    (change : Registry → Except Failure Registry) :
    AlikeAt number (w.write target change).2 w' := by
  have hregistry := w.registry_write_of_ne hne change
  have hlength := w.length_write target change
  have hstations := w.stations_write target change
  have hstation : ∀ k, (w.write target change).2.station k = w.station k := fun k ↦ by
    rw [station, hstations, station]
  refine ⟨h.registry_eq.trans hregistry.symm, h.length_eq.trans hlength.symm, ?_, fun k ↦ ?_,
    fun k hk ↦ ?_, ?_, ?_⟩
  · rw [hstations, h.stations_length_eq]
  · rw [hstation, h.station_registry]
  · rw [hstation] at hk ⊢
    exact h.station_eq k hk
  · rw [h.default_eq, Workspace.write, updateRegistry]
    split <;> rfl
  · rw [h.shared_eq, Workspace.write, updateRegistry]
    split <;> rfl

theorem addConverter (h : AlikeAt number w w') (registry : Nat) (preferences : Preferences) :
    AlikeAt number (w.addConverter registry preferences).2
      (w'.addConverter registry preferences).2 where
  registry_eq := h.registry_eq
  length_eq := h.length_eq
  stations_length_eq := by
    show (w'.stations ++ _).length = (w.stations ++ _).length
    rw [List.length_append, List.length_append, h.stations_length_eq]
  station_registry k := by
    rw [station_addConverter, station_addConverter, h.stations_length_eq]
    split
    · rfl
    · exact h.station_registry k
  station_eq k hk := by
    rw [station_addConverter] at hk ⊢
    rw [station_addConverter, h.stations_length_eq]
    split at hk
    · next heq => rw [if_pos heq, if_pos heq]
    · next hne =>
      rw [if_neg hne, if_neg hne]
      exact h.station_eq k hk
  default_eq := h.default_eq
  shared_eq := h.shared_eq

theorem currentRegistry (h : AlikeAt number w w') (hnumber : number < w.registries.length) :
    w'.currentRegistry.1 = w.currentRegistry.1 ∧
      AlikeAt number w.currentRegistry.2 w'.currentRegistry.2 := by
  rw [Workspace.currentRegistry, Workspace.currentRegistry, h.default_eq]
  split
  · exact ⟨rfl, h⟩
  · have hadded := h.addRegistry hnumber Registry.builtIn Registry.builtIn
    exact ⟨h.length_eq, hadded.registry_eq, hadded.length_eq, hadded.stations_length_eq,
      hadded.station_registry, hadded.station_eq, congrArg some h.length_eq, hadded.shared_eq⟩

theorem renewShared (h : AlikeAt number w w') (registry : Nat) :
    (w'.renewShared registry).1 = (w.renewShared registry).1 ∧
      AlikeAt number (w.renewShared registry).2 (w'.renewShared registry).2 := by
  have hadded := h.addConverter registry {}
  exact ⟨h.stations_length_eq, hadded.registry_eq, hadded.length_eq, hadded.stations_length_eq,
    hadded.station_registry, hadded.station_eq, hadded.default_eq,
    congrArg some h.stations_length_eq⟩

theorem currentConverter (h : AlikeAt number w w') (hnumber : number < w.registries.length) :
    w'.currentConverter.1 = w.currentConverter.1 ∧
      AlikeAt number w.currentConverter.2 w'.currentConverter.2 := by
  obtain ⟨hcurrent, halike⟩ := h.currentRegistry hnumber
  rw [Workspace.currentConverter, Workspace.currentConverter]
  generalize w.currentRegistry = current at hcurrent halike ⊢
  generalize w'.currentRegistry = current' at hcurrent halike ⊢
  obtain ⟨registry, after⟩ := current
  obtain ⟨registry', after'⟩ := current'
  obtain rfl : registry' = registry := hcurrent
  dsimp only at halike ⊢
  rw [halike.shared_eq]
  rcases after.sharedStation with _ | k
  · exact halike.renewShared registry'
  · dsimp only
    rw [halike.station_registry]
    split
    · exact ⟨rfl, halike⟩
    · exact halike.renewShared registry'

/-- A converter on the registry is called in both. -/
theorem put (h : AlikeAt number w w') (call : Call) (hon : (w.station target).registry = number) :
    (w'.put target call).1 = (w.put target call).1 ∧
      AlikeAt number (w.put target call).2 (w'.put target call).2 := by
  have hconverter : w'.converter target = w.converter target := by
    rw [converter, converter, h.station_eq target hon, hon, h.registry_eq]
  refine ⟨?_, ?_, ?_, ?_, fun k ↦ ?_, fun k hk ↦ ?_, h.default_eq, h.shared_eq⟩
  · show Except.map Outcome.answer (call.run (w'.converter target)).1 =
      Except.map Outcome.answer (call.run (w.converter target)).1
    rw [hconverter]
  · rw [registry_put_eq, registry_put_eq, hconverter, h.station_registry, h.length_eq,
      h.registry_eq]
  · show (w'.registries.set _ _).length = (w.registries.set _ _).length
    rw [List.length_set, List.length_set, h.length_eq]
  · show (w'.stations.set _ _).length = (w.stations.set _ _).length
    rw [List.length_set, List.length_set, h.stations_length_eq]
  · rw [station_put_registry, station_put_registry, h.station_registry]
  · rw [station_put_registry] at hk
    rw [station_put, station_put, hconverter, h.stations_length_eq, h.station_eq target hon,
      h.station_eq k hk]

/-- A converter on another registry is called in one of them. -/
theorem put_left (h : AlikeAt number w w') (call : Call)
    (hoff : (w.station target).registry ≠ number) : AlikeAt number (w.put target call).2 w' := by
  refine ⟨?_, ?_, ?_, fun k ↦ ?_, fun k hk ↦ ?_, h.default_eq, h.shared_eq⟩
  · rw [w.registry_put_of_ne target call hoff, h.registry_eq]
  · exact h.length_eq.trans List.length_set.symm
  · exact h.stations_length_eq.trans List.length_set.symm
  · rw [station_put_registry, h.station_registry]
  · rw [station_put_registry] at hk
    have hne : target ≠ k := fun heq ↦ hoff (heq ▸ hk)
    rw [station_put, if_neg fun hsame ↦ hne hsame.1, h.station_eq k hk]

/-- Both workspaces take the same action for one on the registry. -/
theorem subject_eq (h : AlikeAt number w w') (hnumber : number < w.registries.length)
    (action : Action) : action.subject w' = action.subject w := by
  cases action with
  | call target _ => exact congrArg some (h.station_registry target)
  | shortcut _ => exact congrArg some (h.currentRegistry hnumber).1
  | _ => rfl

/-- An action that is on the registry, or on none, is performed in both. Building from another
registry is left aside. -/
theorem perform (h : AlikeAt number w w') (hnumber : number < w.registries.length) {action : Action}
    (hsubject : action.subject w = none ∨ action.subject w = some number)
    (hbuild : ∀ settings base, action = .build settings (some base) → base = number) :
    (action.subject w = some number → (w'.perform action).1 = (w.perform action).1) ∧
      AlikeAt number (w.perform action).2 (w'.perform action).2 := by
  have hnone : ∀ {p : Prop}, (none : Option Nat) = some number → p :=
    fun heq ↦ absurd heq (by simp)
  cases action with
  | seed | ofMultipliers => exact ⟨hnone, h.keep hnumber _⟩
  | copy other => exact ⟨hnone, h.addRegistry hnumber _ _⟩
  | build settings base =>
    refine ⟨hnone, ?_⟩
    have hbase : base.map w'.registry = base.map w.registry := by
      rcases base with _ | base
      · rfl
      · rw [hbuild settings base rfl]
        exact congrArg some h.registry_eq
    rw [Workspace.perform, Workspace.perform, hbase]
    exact h.keep hnumber _
  | insertLinear other symbol multiplier =>
    obtain rfl : other = number := by simpa [Action.subject] using hsubject
    exact (h.write (·.insertScalar symbol multiplier)).imp_left fun hsame _ ↦ hsame
  | insertNonlinear other unit | register other unit | registerNonlinear other unit =>
    obtain rfl : other = number := by simpa [Action.subject] using hsubject
    exact (h.write _).imp_left fun hsame _ ↦ hsame
  | currentRegistry => exact ⟨hnone, (h.currentRegistry hnumber).2⟩
  | appoint other =>
    exact ⟨hnone, h.registry_eq, h.length_eq, h.stations_length_eq, h.station_registry,
      h.station_eq, rfl, h.shared_eq⟩
  | converter registry preferences => exact ⟨hnone, h.addConverter registry preferences⟩
  | currentConverter => exact ⟨hnone, (h.currentConverter hnumber).2⟩
  | call target asked =>
    have hon : (w.station target).registry = number := by
      simpa [Action.subject] using hsubject
    obtain ⟨hanswer, halike⟩ := h.put asked hon
    exact ⟨fun _ ↦ hanswer, halike⟩
  | shortcut asked =>
    have hon : (w.currentConverter.2.station w.currentConverter.1).registry = number := by
      rw [station_currentConverter]
      simpa [Action.subject] using hsubject
    obtain ⟨hshared, halike⟩ := h.currentConverter hnumber
    rw [Workspace.perform, Workspace.perform, hshared]
    exact (halike.put asked hon).imp_left fun hsame _ ↦ hsame

/-- Of an action on the registry, or on none, nothing is left out. -/
theorem perform_kept (h : AlikeAt number w w') (hnumber : number < w.registries.length)
    {action : Action} (hsubject : action.subject w = none ∨ action.subject w = some number)
    (hbuild : ∀ settings base, action = .build settings (some base) → base = number) :
    AlikeAt number (w.perform action).2 (w'.run [action]) ∧
      w'.outcomesOn number [action] =
        if action.subject w = some number then [(w.perform action).1] else [] := by
  obtain ⟨houtcome, halike⟩ := h.perform hnumber hsubject hbuild
  refine ⟨halike, ?_⟩
  rw [outcomesOn, outcomesOn, List.append_nil, h.subject_eq hnumber]
  split
  · next hon => rw [houtcome hon]
  · rfl

/-- An action is performed in one of them, and in the other one what is left of it. This has the
outcome of the action if it is on the registry, and else none that counts. -/
theorem perform_apart (h : AlikeAt number w w') (hnumber : number < w.registries.length)
    (action : Action) :
    AlikeAt number (w.perform action).2 (w'.run (action.apart w number)) ∧
      w'.outcomesOn number (action.apart w number) =
        if action.subject w = some number then [(w.perform action).1] else [] := by
  cases action with
  | seed | ofMultipliers | copy | currentRegistry | appoint | converter | currentConverter =>
    exact h.perform_kept hnumber (Or.inl rfl) (by simp)
  | build settings base =>
    rcases base with _ | base
    · exact h.perform_kept hnumber (Or.inl rfl) (by simp)
    · rw [Action.apart]
      split
      · next heq => exact h.perform_kept hnumber (Or.inl rfl) (by simp [heq])
      · rw [Workspace.perform, Option.map_some]
        rcases settings.buildRegistry (some (w.registry base)) with e | r
        · exact ⟨h, rfl⟩
        · exact ⟨h.addRegistry hnumber r (w'.registry base), rfl⟩
  | insertLinear other | insertNonlinear other | register other | registerNonlinear other =>
    simp only [Action.apart]
    split
    · next hsubject => exact h.perform_kept hnumber hsubject (by simp)
    · next hsubject =>
      obtain ⟨-, hne⟩ := not_or.1 hsubject
      exact ⟨h.write_left (fun heq ↦ hne (congrArg some heq)) _, (if_neg hne).symm⟩
  | call target asked =>
    simp only [Action.apart]
    split
    · next hsubject => exact h.perform_kept hnumber hsubject (by simp)
    · next hsubject =>
      obtain ⟨-, hne⟩ := not_or.1 hsubject
      exact ⟨h.put_left asked fun heq ↦ hne (congrArg some heq), (if_neg hne).symm⟩
  | shortcut asked =>
    rw [Action.apart]
    split
    · next heq => exact h.perform_kept hnumber (Or.inr (congrArg some heq)) (by simp)
    · next hne =>
      have hoff : (w.currentConverter.2.station w.currentConverter.1).registry ≠ number := by
        rw [station_currentConverter]
        exact hne
      exact ⟨(h.currentConverter hnumber).2.put_left asked hoff,
        (if_neg fun heq ↦ hne (Option.some_inj.1 heq)).symm⟩

/-- What is left of an action touches no other registry. -/
theorem registry_apart (h : AlikeAt number w w') (hnumber : number < w.registries.length)
    (action : Action) {other : Nat} (hother : other < w.registries.length) (hne : other ≠ number) :
    (w'.run (action.apart w number)).registry other = w'.registry other := by
  rcases apart_cases w number action with hnothing | ⟨left, hleft, hsubject⟩
  · rw [hnothing]
    rfl
  · rw [hleft]
    refine registry_perform_of_subject_ne (h.length_eq ▸ hother) fun hon ↦ ?_
    rw [h.subject_eq hnumber] at hon
    rcases hsubject with hnone | hsome
    · exact absurd (hon.symm.trans hnone) (by simp)
    · exact hne (Option.some_inj.1 (hon.symm.trans hsome))

/-- A run in one of them, and what is left of it in the other one. -/
theorem run_apart (h : AlikeAt number w w') (hnumber : number < w.registries.length)
    (actions : List Action) :
    AlikeAt number (w.run actions) (w'.run (w.apart number actions)) ∧
      w'.outcomesOn number (w.apart number actions) = w.outcomesOn number actions ∧
      ∀ other, other < w.registries.length → other ≠ number →
        (w'.run (w.apart number actions)).registry other = w'.registry other := by
  induction actions generalizing w w' with
  | nil => exact ⟨h, rfl, fun _ _ _ ↦ rfl⟩
  | cons action actions ih =>
    obtain ⟨hfirst, houtcome⟩ := h.perform_apart hnumber action
    have hlength := w.length_perform action
    obtain ⟨halike, houtcomes, huntouched⟩ := ih hfirst (hnumber.trans_le hlength)
    rw [Workspace.apart, run_cons, run_append, outcomesOn_append, outcomesOn, houtcome, houtcomes]
    refine ⟨halike, rfl, fun other hother hne ↦ ?_⟩
    rw [huntouched other (hother.trans_le hlength) hne, h.registry_apart hnumber action hother hne]

end AlikeAt

/-- For one registry, a run and what is left of it without the other ones come to the same: the
registry ends alike and what is done on it has the same outcomes, and in what is left the other ones
that there were are not touched. -/
structure EndsAlone (w : Workspace) (number : Nat) (actions : List Action) : Prop where
  registry_eq : (w.run (w.apart number actions)).registry number =
    (w.run actions).registry number
  outcomes_eq : w.outcomesOn number (w.apart number actions) = w.outcomesOn number actions
  untouched : ∀ other, other < w.registries.length → other ≠ number →
    (w.run (w.apart number actions)).registry other = w.registry other

theorem endsAlone (hnumber : number < w.registries.length) (actions : List Action) :
    w.EndsAlone number actions := by
  obtain ⟨halike, houtcomes, huntouched⟩ := (AlikeAt.refl number w).run_apart hnumber actions
  exact ⟨halike.registry_eq, houtcomes, huntouched⟩

/-! ### Converters on one registry -/

/-- A converter answers from an entry of its registry, whatever it is asked for: it gives the
multiplier, and it converts by it. -/
structure AnswersBy (w : Workspace) (converter : Nat) (symbol : RawText) (multiplier : Scalar) :
    Prop where
  multiplier_eq : ∀ request,
    w.answer converter (.multiplier request symbol) = .ok (.multiplier multiplier)
  single_eq : symbol ≠ "" → ∀ direction request value,
    w.answer converter (.single direction request value symbol) =
      (((direction.step multiplier).run value).mapError Failure.number).map .value

theorem answersBy_of_linear? (hw : w.Valid) {converter : Nat} {symbol : RawText}
    {multiplier : Scalar}
    (hlinear : (w.registry (w.station converter).registry).linear? symbol = some multiplier) :
    w.AnswersBy converter symbol multiplier := by
  let c := w.converter converter
  have hlinear' : c.registry.linear? symbol = some multiplier := hlinear
  have hnonlinear : c.registry.nonlinear? symbol = none :=
    ((hw _).disjoint symbol).resolve_left fun hnone ↦
      absurd (hlinear.symm.trans hnone) (by simp)
  have hresolve : ∀ p, (c.resolve p (some symbol)).1 = .ok multiplier := by
    intro p
    rw [Converter.resolve, Option.bind_some, hlinear']
  refine ⟨fun request ↦ ?_, fun hsymbol direction request value ↦ ?_⟩
  · have hanswer : (c.multiplier request (some symbol)).1 = .ok multiplier := by
      rw [Converter.multiplier, Option.bind_some, hnonlinear]
      exact hresolve _
    exact congrArg (Except.map Answer.multiplier) hanswer
  · have hanswer : (c.convertBy direction request value (some symbol)).1 =
        ((direction.step multiplier).run value).mapError Failure.number := by
      rw [Converter.convertBy_linear hsymbol hnonlinear, Converter.settle_fst, hresolve]
      rfl
    exact congrArg (Except.map Answer.value) hanswer

end Workspace

theorem Registry.AddsEntry.linear?_eq {r r' : Registry} {symbol : RawText} {x : Double}
    (h : r.AddsEntry symbol x r') (hfree : r.linear? symbol = none) :
    r'.linear? symbol = some (.double x) := by
  have hnone : (r.linear.entries.find? fun entry ↦ entry.1 = symbol) = none :=
    Option.map_eq_none_iff.1 hfree
  rw [linear?, SymbolMap.get?, h.linear_eq, List.find?_append, hnone]
  simp

/-- A call of one unit adds the entry of this unit if it is to be memoized. -/
theorem Call.recalls_run {c : Converter} (hvalid : c.registry.Valid) {call : Call}
    {symbol : RawText} (hsymbol : symbol ≠ "") (hunits : call.units = [some symbol]) :
    c.registry.Recalls (c.preferences.override call.request) symbol (call.run c).2.registry := by
  have hnamed : Converter.named (some symbol) = some symbol :=
    Option.filter_some_pos (by simpa using hsymbol)
  have hconverted : ∀ direction request value, c.registry.Recalls (c.preferences.override request)
      symbol (c.convertBy direction request value (some symbol)).2.registry := by
    intro direction request value
    have hrecalls := Converter.recallsOnly_convertBy hvalid direction request value (some symbol)
    rwa [hnamed] at hrecalls
  cases call with
  | single direction request value unit =>
    obtain rfl : unit = some symbol := List.singleton_inj.1 hunits
    exact hconverted direction request value
  | between => exact absurd hunits (by simp [Call.units])
  | accepts parseCompound unit =>
    obtain rfl : unit = some symbol := List.singleton_inj.1 hunits
    rw [run, c.accepts_eq]
    exact hconverted .toInternal _ _
  | multiplier request unit =>
    obtain rfl : unit = some symbol := List.singleton_inj.1 hunits
    exact Converter.recallsOnly_multiplier hvalid request (some symbol)

namespace Workspace

/-- A call through one converter is seen by every converter on the same registry. -/
structure SeenBy (w : Workspace) (k : Nat) (call : Call) (k' : Nat) : Prop where
  /-- The registry of the other converter is the one that the call leaves. -/
  registry_eq : ((w.perform (.call k call)).2.converter k').registry =
    (call.run (w.converter k)).2.registry
  /-- The other converter answers from every entry in it. -/
  answersBy : ∀ symbol multiplier,
    (call.run (w.converter k)).2.registry.linear? symbol = some multiplier →
      (w.perform (.call k call)).2.AnswersBy k' symbol multiplier
  /-- So it does from the entry that the call memoizes. -/
  memoized : ∀ symbol : RawText, symbol ≠ "" → call.units = [some symbol] →
    (w.converter k).registry.ToMemoize ((w.converter k).preferences.override call.request) symbol →
      ∃ x, (w.converter k).registry.memoOf symbol = some x ∧
        (w.perform (.call k call)).2.AnswersBy k' symbol (.double x)

theorem seenBy {w : Workspace} (hw : w.Valid) {k k' : Nat} (call : Call)
    (hregistry : (w.station k).registry < w.registries.length)
    (hsame : (w.station k').registry = (w.station k).registry) : w.SeenBy k call k' := by
  have hstation : ((w.perform (.call k call)).2.station k').registry = (w.station k).registry :=
    (w.station_put_registry k call k').trans hsame
  have hleft : (w.perform (.call k call)).2.registry
      ((w.perform (.call k call)).2.station k').registry =
        (call.run (w.converter k)).2.registry := by
    rw [hstation]
    exact (w.registry_put_eq k call _).trans (if_pos ⟨rfl, hregistry⟩)
  have hanswers : ∀ symbol multiplier,
      (call.run (w.converter k)).2.registry.linear? symbol = some multiplier →
        (w.perform (.call k call)).2.AnswersBy k' symbol multiplier := by
    intro symbol multiplier hlinear
    rw [← hleft] at hlinear
    exact answersBy_of_linear? (hw.perform _) hlinear
  refine ⟨hleft, hanswers, fun symbol hsymbol hunits hmemoize ↦ ?_⟩
  obtain ⟨x, hx, hadds⟩ := (Call.recalls_run (hw _) hsymbol hunits).added hmemoize
  have hfree := (Registry.contains_eq_false_iff.1 hmemoize.1).1
  exact ⟨x, hx, hanswers symbol _ (hadds.linear?_eq hfree)⟩

/-! ### Isolation -/

/-- **Registries are isolated, and converters on one registry share it.** An action changes no
registry but the one that it is on. Whatever is done in a run, every registry ends as if nothing had
been done on the others, and so do a copy and its original, which are equal to begin with. And what
a call through a converter leaves in its registry is answered from by every converter on it. -/
theorem registries_isolated {w : Workspace} (hw : w.Valid) :
    (∀ action number, number < w.registries.length → action.subject w ≠ some number →
      (w.perform action).2.registry number = w.registry number) ∧
    (∀ number actions, number < w.registries.length → w.EndsAlone number actions) ∧
    (∀ number, number < w.registries.length →
      let clone := w.registries.length
      let after := (w.perform (.copy number)).2
      (w.perform (.copy number)).1 = .ok (.number clone) ∧
        after.registry clone = w.registry number ∧ after.registry number = w.registry number ∧
        ∀ actions, after.EndsAlone number actions ∧ after.EndsAlone clone actions) ∧
    ∀ k k' call, (w.station k).registry < w.registries.length →
      (w.station k').registry = (w.station k).registry → w.SeenBy k call k' := by
  refine ⟨fun action number hnumber hsubject ↦ registry_perform_of_subject_ne hnumber hsubject,
    fun number actions hnumber ↦ endsAlone hnumber actions, fun number hnumber ↦ ?_,
    fun k k' call hregistry hsame ↦ seenBy hw call hregistry hsame⟩
  intro clone after
  have hlength : after.registries.length = w.registries.length + 1 := List.length_append
  have hclone : after.registry clone = w.registry number :=
    (w.registry_addRegistry _ clone).trans (if_pos rfl)
  refine ⟨rfl, hclone, w.registry_addRegistry_of_lt _ hnumber, fun actions ↦ ⟨?_, ?_⟩⟩
  · exact endsAlone (hlength ▸ hnumber.trans (Nat.lt_succ_self _)) actions
  · exact endsAlone (hlength ▸ Nat.lt_succ_self _) actions

/-- Two converters on a registry of two units of length, one of which does not parse. -/
def lengthUnits : Workspace :=
  ({} : Workspace).run
    [.ofMultipliers ⟨[("m", .double 1), ("km", .double 1000)], by decide⟩, .converter 0 {},
      .converter 0 { parseCompound := false }]

/-- An area is converted. -/
def areaCall : Call := .single .toInternal {} (.ofDouble 1) "km m"

/-- What is done on a registry and its copy, in turns. -/
def turns : List Action :=
  [.converter 1 {}, .insertLinear 0 "km" (.double 1609), .call 2 areaCall,
    .insertLinear 1 "ft" (.double 1), .call 0 areaCall]

theorem registries_isolated_lengths :
    (lengthUnits.Valid ∧ 0 < lengthUnits.registries.length ∧
        (lengthUnits.station 1).registry = (lengthUnits.station 0).registry) ∧
      ((lengthUnits.perform (.copy 0)).2.EndsAlone 0 turns ∧
        (lengthUnits.perform (.copy 0)).2.EndsAlone 1 turns) ∧
      ∃ x, (lengthUnits.converter 0).registry.memoOf "km m" = some x ∧
        (lengthUnits.perform (.call 0 areaCall)).2.AnswersBy 1 "km m" (.double x) := by
  have hvalid : lengthUnits.Valid := valid_empty.run _
  have hlength : lengthUnits.registries.length = 1 := by decide +kernel
  have hnumber : 0 < lengthUnits.registries.length := by decide +kernel
  have hregistry : (lengthUnits.station 0).registry < lengthUnits.registries.length := by
    decide +kernel
  have hsame : (lengthUnits.station 1).registry = (lengthUnits.station 0).registry := by
    decide +kernel
  have hfree : (lengthUnits.converter 0).registry.contains "km m" = false := by decide +kernel
  have hvalue : (Expression.evaluate (lengthUnits.converter 0).registry "km m").toOption.isSome =
      true := by decide +kernel
  have hmemoize : (lengthUnits.converter 0).registry.ToMemoize
      ((lengthUnits.converter 0).preferences.override areaCall.request) "km m" :=
    ⟨hfree, by decide +kernel, by decide +kernel, exists_ok_of_isSome hvalue⟩
  obtain ⟨-, -, hcopies, hshared⟩ := registries_isolated hvalid
  have halone := (hcopies 0 hnumber).2.2.2 turns
  rw [hlength] at halone
  have hseen := hshared 0 1 areaCall hregistry hsame
  have hunits : areaCall.units = [some (.ofString "km m")] := rfl
  exact ⟨⟨hvalid, hnumber, hsame⟩, halone, hseen.memoized "km m" (by decide) hunits hmemoize⟩

end Workspace

end Metrology
