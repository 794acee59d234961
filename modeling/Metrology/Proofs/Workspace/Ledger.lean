import Mathlib.Algebra.BigOperators.Group.Finset.Piecewise
import Metrology.Proofs.Converter.Spending
import Metrology.Proofs.Workspace.Action

/-!
# The ledger of a run

The counters of converters along a run of a workspace, in which anything may be done between the
calls. Two things are said of them:

* the counters of a converter tell how many single conversions have been attempted and how many
  multipliers have been given, since they were last nothing;
* a registry that is written to by nothing but some converters has grown by what they have memoized.

Both are read off one account for each action (`Charges`): a call that settles is charged to its
converter, with the account that `Call.exists_spends_run` gives, and to its registry; every other
action at most makes converters, whose counters are nothing (`Enlists`).
-/

namespace Metrology.Workspace

variable {w w' : Workspace} {number : Nat}

/-! ### The calls of a run -/

/-- A call that is made in a run, with the workspace that it is made in. -/
structure Asked where
  before : Workspace
  number : Nat
  call : Call

namespace Asked

def converter (asked : Asked) : Converter := asked.before.converter asked.number

def answer (asked : Asked) : Except Failure Answer := asked.before.answer asked.number asked.call

/-- The number of the converter's registry. -/
def registry (asked : Asked) : Nat := (asked.before.station asked.number).registry

/-- The registry that the call may memoize in. -/
def memoizesIn (asked : Asked) : Option Nat := asked.before.memoizesIn asked.number asked.call

/-- The converter and its registry are there, and the call ends in an answer or in the failure to
resolve a unit. -/
def isProper (asked : Asked) : Bool :=
  decide (asked.number < asked.before.stations.length) &&
    decide (asked.registry < asked.before.registries.length) && settles asked.answer

end Asked

/-- The call that an action makes. -/
def Action.asked (w : Workspace) : Action → Option Asked
  | call number asked => some ⟨w, number, asked⟩
  | shortcut asked => some ⟨w.currentConverter.2, w.currentConverter.1, asked⟩
  | _ => none

/-- The calls that are made in a run, in their order. -/
def asked (w : Workspace) : List Action → List Asked
  | [] => []
  | action :: actions => (action.asked w).toList ++ asked (w.perform action).2 actions

/-- What is counted of the calls of one converter, each as the converter is at that moment. -/
def tally (count : Converter → Call → Nat) (number : Nat) : List Asked → Nat
  | [] => 0
  | asked :: calls =>
    (if asked.number = number then count asked.converter asked.call else 0) +
      tally count number calls

theorem tally_append (count : Converter → Call → Nat) (number : Nat) (calls calls' : List Asked) :
    tally count number (calls ++ calls') =
      tally count number calls + tally count number calls' := by
  induction calls with
  | nil => exact (Nat.zero_add _).symm
  | cons asked calls ih => rw [List.cons_append, tally, ih, tally, Nat.add_assoc]

theorem tally_singleton (count : Converter → Call → Nat) (asked : Asked) :
    tally count asked.number [asked] = count asked.converter asked.call :=
  if_pos rfl

theorem tally_singleton_of_ne (count : Converter → Call → Nat) {asked : Asked}
    (hne : asked.number ≠ number) : tally count number [asked] = 0 :=
  if_neg hne

theorem perform_of_asked {action : Action} {asked : Asked} (h : action.asked w = some asked) :
    (w.perform action).2 = (asked.before.use asked.number asked.call.run).2 := by
  cases action with
  | call | shortcut => exact Option.some_inj.1 h ▸ rfl
  | _ => exact absurd h (by simp [Action.asked])

/-! ### Making converters -/

/-- Converters have been made, and those that were there are as they were. -/
def Enlists (w w' : Workspace) : Prop :=
  ∃ made : List Station, w'.stations = w.stations ++ made ∧
    ∀ station ∈ made, station.statistics = {}

theorem enlists_of_stations_eq (h : w'.stations = w.stations) : w.Enlists w' :=
  ⟨[], by rw [h, List.append_nil], fun _ hmem ↦ absurd hmem List.not_mem_nil⟩

theorem enlists_addConverter (w : Workspace) (registry : Nat) (preferences : Preferences) :
    w.Enlists (w.addConverter registry preferences).2 := by
  refine ⟨[{ registry, preferences }], rfl, fun station hmem ↦ ?_⟩
  rw [List.mem_singleton.1 hmem]

theorem stations_currentRegistry (w : Workspace) :
    w.currentRegistry.2.stations = w.stations := by
  rw [Workspace.currentRegistry]
  split <;> rfl

theorem enlists_currentConverter (w : Workspace) : w.Enlists w.currentConverter.2 := by
  have hstations := w.stations_currentRegistry
  rw [Workspace.currentConverter]
  generalize w.currentRegistry = current at hstations ⊢
  obtain ⟨registry, w'⟩ := current
  have hrenewed : w.Enlists (w'.renewShared registry).2 := by
    obtain ⟨made, hmade, hnothing⟩ := w'.enlists_addConverter registry {}
    exact ⟨made, by rw [← hstations]; exact hmade, hnothing⟩
  dsimp only
  split
  · split
    · exact enlists_of_stations_eq hstations
    · exact hrenewed
  · exact hrenewed

/-- The counters of a converter that has been made are nothing, as those of a number that stands for
none. -/
theorem Enlists.statistics_eq (h : w.Enlists w') (number : Nat) :
    (w'.station number).statistics = (w.station number).statistics := by
  obtain ⟨made, hmade, hnothing⟩ := h
  rw [station, station, hmade]
  -- a number that stood for no converter is read as a converter that has done nothing
  rcases Nat.lt_or_ge number w.stations.length with hlt | hge
  · rw [List.getElem?_append_left hlt]
  · rw [List.getElem?_append_right hge, List.getElem?_eq_none hge]
    rcases hnew : made[number - w.stations.length]? with _ | station
    · rfl
    · exact hnothing station (List.mem_of_getElem? hnew)

theorem Enlists.station_eq (h : w.Enlists w') (hnumber : number < w.stations.length) :
    w'.station number = w.station number := by
  obtain ⟨made, hmade, -⟩ := h
  rw [station, station, hmade, List.getElem?_append_left hnumber]

theorem Enlists.length_le (h : w.Enlists w') : w.stations.length ≤ w'.stations.length := by
  obtain ⟨made, hmade, -⟩ := h
  rw [hmade, List.length_append]
  exact Nat.le_add_right _ _

theorem stations_keep (w : Workspace) (result : Except Failure Registry) :
    (w.keep result).2.stations = w.stations := by
  rcases result with e | r <;> rfl

theorem stations_write (w : Workspace) (number : Nat)
    (change : Registry → Except Failure Registry) :
    (w.write number change).2.stations = w.stations := by
  rw [write, updateRegistry]
  split <;> rfl

/-- An action that is no call at most makes converters. -/
theorem enlists_perform {action : Action} (h : action.asked w = none) :
    w.Enlists (w.perform action).2 := by
  cases action with
  | seed | ofMultipliers | copy | build => exact enlists_of_stations_eq (w.stations_keep _)
  | insertLinear | insertNonlinear | register | registerNonlinear =>
    exact enlists_of_stations_eq (w.stations_write _ _)
  | currentRegistry => exact enlists_of_stations_eq w.stations_currentRegistry
  | appoint => exact enlists_of_stations_eq rfl
  | converter registry preferences => exact w.enlists_addConverter registry preferences
  | currentConverter => exact w.enlists_currentConverter
  | call | shortcut => exact absurd h (by simp [Action.asked])

/-- The workspace in which an action puts its call: at most a converter has been made. -/
theorem enlists_before {action : Action} {asked : Asked} (h : action.asked w = some asked) :
    w.Enlists asked.before := by
  cases action with
  | call => exact Option.some_inj.1 h ▸ enlists_of_stations_eq rfl
  | shortcut => exact Option.some_inj.1 h ▸ w.enlists_currentConverter
  | _ => exact absurd h (by simp [Action.asked])

/-! ### Writing to no registry -/

theorem registry_write_of_ne (w : Workspace) {target : Nat} (hne : target ≠ number)
    (change : Registry → Except Failure Registry) :
    (w.write target change).2.registry number = w.registry number :=
  (w.registry_updateRegistry target number change).resolve_right fun h ↦ hne h.1

theorem ne_of_targets {target : Nat} {symbols : List RawText} (hsymbols : symbols ≠ [])
    (h : (if target = number then symbols else []) = []) : target ≠ number := by
  intro heq
  rw [if_pos heq] at h
  exact hsymbols h

/-- An action that is no call and does not write to a registry leaves it as it is. -/
theorem registry_perform_of_untargeted {action : Action} (hnumber : number < w.registries.length)
    (htargets : action.targets number = []) (h : action.asked w = none) :
    (w.perform action).2.registry number = w.registry number := by
  cases action with
  | seed | ofMultipliers | copy | build => exact w.registry_keep_of_lt _ hnumber
  | insertLinear => exact w.registry_write_of_ne (ne_of_targets (by simp) htargets) _
  | insertNonlinear => exact w.registry_write_of_ne (ne_of_targets (by simp) htargets) _
  | register target unit =>
    exact w.registry_write_of_ne (ne_of_targets (List.cons_ne_nil _ _) htargets) _
  | registerNonlinear target unit =>
    exact w.registry_write_of_ne (ne_of_targets (List.cons_ne_nil _ _) htargets) _
  | currentRegistry => exact w.registry_currentRegistry_of_lt hnumber
  | appoint | converter => rfl
  | currentConverter => exact w.registry_currentConverter_of_lt hnumber
  | call | shortcut => exact absurd h (by simp [Action.asked])

theorem registry_before {action : Action} {asked : Asked} (hnumber : number < w.registries.length)
    (h : action.asked w = some asked) : asked.before.registry number = w.registry number := by
  cases action with
  | call => exact Option.some_inj.1 h ▸ rfl
  | shortcut => exact Option.some_inj.1 h ▸ w.registry_currentConverter_of_lt hnumber
  | _ => exact absurd h (by simp [Action.asked])

/-! ### Charging a converter -/

/-- A converter has been charged with an account, and its registry has grown by what it has
memoized. -/
structure Charges (w : Workspace) (number : Nat) (spent : Statistics) (w' : Workspace) : Prop where
  statistics_eq : (w'.station number).statistics = (w.station number).statistics + spent
  size_eq : (w'.registry (w.station number).registry).size =
    (w.registry (w.station number).registry).size + spent.memoizedUnits

variable {α : Type} {action : Converter → α × Converter}

theorem charges_use {spent : Statistics} (hstation : number < w.stations.length)
    (hregistry : (w.station number).registry < w.registries.length)
    (hspends : (w.converter number).Spends spent (action (w.converter number)).2) :
    w.Charges number spent (w.use number action).2 := by
  have hput : (w.use number action).2.station number =
      if number = number ∧ number < w.stations.length then
        { w.station number with statistics := (action (w.converter number)).2.statistics }
      else w.station number := getElem?_set_getD _ _ _ _ _
  have hset : (w.use number action).2.registry (w.station number).registry =
      if (w.station number).registry = (w.station number).registry ∧
          (w.station number).registry < w.registries.length then
        (action (w.converter number)).2.registry
      else w.registry (w.station number).registry := getElem?_set_getD _ _ _ _ _
  rw [if_pos ⟨rfl, hstation⟩] at hput
  rw [if_pos ⟨rfl, hregistry⟩] at hset
  exact ⟨by rw [hput]; exact hspends.statistics_eq, by rw [hset]; exact hspends.size_eq⟩

/-- The other converters are not charged. -/
theorem station_use_of_ne {other : Nat} (hne : number ≠ other) :
    (w.use number action).2.station other = w.station other := by
  have hput : (w.use number action).2.station other =
      if number = other ∧ number < w.stations.length then
        { w.station number with statistics := (action (w.converter number)).2.statistics }
      else w.station other := getElem?_set_getD _ _ _ _ _
  rw [hput, if_neg fun h ↦ hne h.1]

/-- A proper call is charged with an account of its attempts and of what it gives. -/
theorem Asked.exists_charges {asked : Asked} (hproper : asked.isProper = true) :
    ∃ spent, asked.before.Charges asked.number spent
        (asked.before.use asked.number asked.call.run).2 ∧
      spent.Balances (asked.call.attempts asked.converter) (asked.call.given asked.converter) := by
  rw [isProper, Bool.and_eq_true, Bool.and_eq_true, decide_eq_true_iff, decide_eq_true_iff]
    at hproper
  obtain ⟨⟨hstation, hregistry⟩, hsettles⟩ := hproper
  obtain ⟨spent, hspends, hbalances⟩ := asked.call.exists_spends_run hsettles
  exact ⟨spent, charges_use hstation hregistry hspends, hbalances⟩

/-! ### The account of a converter -/

theorem exists_account_perform {action : Action} {number : Nat}
    (hproper : ∀ asked ∈ (action.asked w).toList, asked.number = number → asked.isProper = true) :
    ∃ spent : Statistics, ((w.perform action).2.station number).statistics =
        (w.station number).statistics + spent ∧
      spent.Balances (tally Call.attempts number (action.asked w).toList)
        (tally Call.given number (action.asked w).toList) := by
  rcases hasked : action.asked w with _ | asked
  · exact ⟨{}, (enlists_perform hasked).statistics_eq number, Statistics.balances_nothing⟩
  · rw [hasked, Option.toList_some] at hproper
    have hbefore := (enlists_before hasked).statistics_eq number
    -- before it makes the call, a shortcut may have made the shared converter
    rw [perform_of_asked hasked, Option.toList_some, ← hbefore]
    by_cases heq : asked.number = number
    · obtain ⟨spent, hcharges, hbalances⟩ :=
        Asked.exists_charges (hproper asked (List.mem_singleton_self asked) heq)
      subst heq
      rw [tally_singleton, tally_singleton]
      exact ⟨spent, hcharges.statistics_eq, hbalances⟩
    · rw [tally_singleton_of_ne _ heq, tally_singleton_of_ne _ heq, station_use_of_ne heq]
      exact ⟨{}, rfl, Statistics.balances_nothing⟩

/-- Along a run a converter is charged with the accounts of its calls. -/
theorem exists_account_run {actions : List Action} {number : Nat}
    (hproper : ∀ asked ∈ w.asked actions, asked.number = number → asked.isProper = true) :
    ∃ spent : Statistics, ((w.run actions).station number).statistics =
        (w.station number).statistics + spent ∧
      spent.Balances (tally Call.attempts number (w.asked actions))
        (tally Call.given number (w.asked actions)) := by
  induction actions generalizing w with
  | nil => exact ⟨{}, rfl, Statistics.balances_nothing⟩
  | cons action actions ih =>
    rw [asked] at hproper ⊢
    obtain ⟨hfirst, hrest⟩ := List.forall_mem_append.1 hproper
    obtain ⟨spent, hspent, hbalances⟩ := exists_account_perform hfirst
    obtain ⟨spent', hspent', hbalances'⟩ := ih hrest
    refine ⟨spent + spent', ?_, ?_⟩
    · rw [run_cons, hspent', hspent, Statistics.add_assoc]
    · rw [tally_append, tally_append]
      exact hbalances.add hbalances'

/-! ### The size of a registry -/

/-- What some converters have memoized. -/
def memoizedBy (w : Workspace) (team : Finset Nat) : Nat :=
  ∑ number ∈ team, (w.station number).statistics.memoizedUnits

theorem memoizedBy_congr {team : Finset Nat}
    (h : ∀ number ∈ team, (w'.station number).statistics = (w.station number).statistics) :
    w'.memoizedBy team = w.memoizedBy team :=
  Finset.sum_congr rfl fun number hnumber ↦ by rw [h number hnumber]

/-- What is charged to one of the converters is charged to them all. -/
theorem memoizedBy_of_charge {team : Finset Nat} {spent : Statistics} (hnumber : number ∈ team)
    (hcharged : (w'.station number).statistics = (w.station number).statistics + spent)
    (hothers : ∀ other, other ≠ number → w'.station other = w.station other) :
    w'.memoizedBy team = w.memoizedBy team + spent.memoizedUnits := by
  have hstation : ∀ other, (w'.station other).statistics.memoizedUnits =
      (w.station other).statistics.memoizedUnits +
        if other = number then spent.memoizedUnits else 0 := by
    intro other
    by_cases heq : other = number
    · rw [if_pos heq, heq, hcharged, Statistics.memoizedUnits_add]
    · rw [if_neg heq, hothers other heq, Nat.add_zero]
  rw [memoizedBy, Finset.sum_congr rfl fun other _ ↦ hstation other, Finset.sum_add_distrib,
    Finset.sum_ite_eq' team number, if_pos hnumber]
  rfl

/-- The size of a registry and what some converters on it have memoized, when none of the others
memoizes in it: a call adds to both alike. -/
theorem Asked.size_use {asked : Asked} {registry : Nat} {team : Finset Nat}
    (hproper : asked.number ∈ team → asked.isProper = true)
    (honly : asked.memoizesIn = some registry → asked.number ∈ team)
    (hteam : asked.number ∈ team → asked.registry = registry) :
    let after := (asked.before.use asked.number asked.call.run).2
    (after.registry registry).size + asked.before.memoizedBy team =
      (asked.before.registry registry).size + after.memoizedBy team := by
  intro after
  -- one of the converters is charged, and its registry is this one; or else nothing happens to it
  by_cases hmem : asked.number ∈ team
  · obtain ⟨spent, hcharges, -⟩ := exists_charges (hproper hmem)
    have hsize := hcharges.size_eq
    have hmemoized : after.memoizedBy team = asked.before.memoizedBy team + spent.memoizedUnits :=
      memoizedBy_of_charge hmem hcharges.statistics_eq fun _ hne ↦ station_use_of_ne hne.symm
    rw [show (asked.before.station asked.number).registry = registry from hteam hmem] at hsize
    rw [hmemoized, hsize]
    omega
  · have hregistry : after.registry registry = asked.before.registry registry :=
      (asked.before.registry_put asked.number registry asked.call).resolve_right
        fun h ↦ hmem (honly h.1)
    have hmemoized : after.memoizedBy team = asked.before.memoizedBy team :=
      memoizedBy_congr fun other hother ↦
        congrArg Station.statistics (station_use_of_ne fun heq ↦ hmem (heq ▸ hother))
    rw [hregistry, hmemoized]

variable {registry : Nat} {team : Finset Nat}

theorem size_perform {action : Action} (hregistry : registry < w.registries.length)
    (htargets : action.targets registry = [])
    (hproper : ∀ asked ∈ (action.asked w).toList, asked.number ∈ team → asked.isProper = true)
    (honly : ∀ asked ∈ (action.asked w).toList,
      asked.memoizesIn = some registry → asked.number ∈ team)
    (hteam : ∀ asked ∈ (action.asked w).toList, asked.number ∈ team → asked.registry = registry) :
    ((w.perform action).2.registry registry).size + w.memoizedBy team =
      (w.registry registry).size + (w.perform action).2.memoizedBy team := by
  rcases hasked : action.asked w with _ | asked
  · have hmemoized : (w.perform action).2.memoizedBy team = w.memoizedBy team :=
      memoizedBy_congr fun number _ ↦ (enlists_perform hasked).statistics_eq number
    rw [registry_perform_of_untargeted hregistry htargets hasked, hmemoized]
  · rw [hasked, Option.toList_some] at hproper honly hteam
    have hmem := List.mem_singleton_self asked
    have hmemoized : asked.before.memoizedBy team = w.memoizedBy team :=
      memoizedBy_congr fun number _ ↦ (enlists_before hasked).statistics_eq number
    have hsize := Asked.size_use (hproper asked hmem) (honly asked hmem) (hteam asked hmem)
    rw [perform_of_asked hasked, ← hmemoized, ← registry_before hregistry hasked]
    exact hsize

theorem size_run {actions : List Action} (hregistry : registry < w.registries.length)
    (htargets : ∀ action ∈ actions, action.targets registry = [])
    (hproper : ∀ asked ∈ w.asked actions, asked.number ∈ team → asked.isProper = true)
    (honly : ∀ asked ∈ w.asked actions, asked.memoizesIn = some registry → asked.number ∈ team)
    (hteam : ∀ asked ∈ w.asked actions, asked.number ∈ team → asked.registry = registry) :
    ((w.run actions).registry registry).size + w.memoizedBy team =
      (w.registry registry).size + (w.run actions).memoizedBy team := by
  induction actions generalizing w with
  | nil => rfl
  | cons action actions ih =>
    rw [asked] at hproper honly hteam
    obtain ⟨htarget, htargets⟩ := List.forall_mem_cons.1 htargets
    obtain ⟨hproper, hpropers⟩ := List.forall_mem_append.1 hproper
    obtain ⟨honly, honlys⟩ := List.forall_mem_append.1 honly
    obtain ⟨hteam, hteams⟩ := List.forall_mem_append.1 hteam
    have hfirst := size_perform hregistry htarget hproper honly hteam
    have hrest := ih (hregistry.trans_le (w.length_perform action)) htargets hpropers honlys hteams
    -- the two equations share the middle workspace
    rw [run_cons]
    omega

/-! ### A converter stays on its registry -/

theorem station_registry_perform (w : Workspace) (action : Action)
    (hnumber : number < w.stations.length) :
    number < (w.perform action).2.stations.length ∧
      ((w.perform action).2.station number).registry = (w.station number).registry := by
  rcases hasked : action.asked w with _ | asked
  · have henlists := enlists_perform hasked
    exact ⟨hnumber.trans_le henlists.length_le,
      congrArg Station.registry (henlists.station_eq hnumber)⟩
  · have henlists := enlists_before hasked
    have hused := asked.before.used_call asked.number asked.call
    rw [perform_of_asked hasked, hused.station_registry, henlists.station_eq hnumber]
    refine ⟨(hnumber.trans_le henlists.length_le).trans_eq ?_, rfl⟩
    exact List.length_set.symm

theorem station_registry_run {actions : List Action} (hnumber : number < w.stations.length) :
    ((w.run actions).station number).registry = (w.station number).registry := by
  induction actions generalizing w with
  | nil => rfl
  | cons action actions ih =>
    obtain ⟨hnumber', hregistry⟩ := w.station_registry_perform action hnumber
    rw [run_cons, ih hnumber', hregistry]

/-- The registry of a converter in the end is the one it was on when it was called. -/
theorem registry_of_mem_asked {actions : List Action} {asked : Asked}
    (hasked : asked ∈ w.asked actions) (hproper : asked.isProper = true) :
    ((w.run actions).station asked.number).registry = asked.registry := by
  rw [Asked.isProper, Bool.and_eq_true, Bool.and_eq_true, decide_eq_true_iff] at hproper
  induction actions generalizing w with
  | nil => exact absurd hasked List.not_mem_nil
  | cons action actions ih =>
    rw [Workspace.asked, List.mem_append, Option.mem_toList] at hasked
    rcases hasked with hfirst | hrest
    · have hlength : asked.number < (w.perform action).2.stations.length := by
        rw [perform_of_asked hfirst]
        exact hproper.1.1.trans_eq List.length_set.symm
      have hused := asked.before.used_call asked.number asked.call
      rw [run_cons, station_registry_run hlength, perform_of_asked hfirst, hused.station_registry]
      rfl
    · exact ih hrest

/-! ### The ledger -/

/-- **The counters are a ledger.** Of a converter whose counters were nothing at the start of a run,
because they were reset or it is made in the run, and all of whose calls end in an answer or in the
failure to resolve a unit: conversions and errors together are the single conversions with a unit
that were attempted, look ups and parses together are the conversions and the multipliers that were
given, and at most as many units were memoized as were parsed. And a registry that no action writes
to, and in which no call memoizes but those of some such converters on it, has grown by what these
have memoized. -/
theorem statistics_balance (w : Workspace) (actions : List Action) :
    (∀ number, (w.station number).statistics = {} →
      (∀ asked ∈ w.asked actions, asked.number = number → asked.isProper = true) →
        let s := ((w.run actions).station number).statistics
        s.conversions + s.errors = tally Call.attempts number (w.asked actions) ∧
          s.registryHits + s.parsedUnits =
            s.conversions + tally Call.given number (w.asked actions) ∧
          s.memoizedUnits ≤ s.parsedUnits) ∧
    ∀ (registry : Nat) (team : Finset Nat), registry < w.registries.length →
      (∀ action ∈ actions, action.targets registry = []) →
      (∀ asked ∈ w.asked actions, asked.memoizesIn = some registry → asked.number ∈ team) →
      (∀ number ∈ team, ((w.run actions).station number).registry = registry ∧
        (w.station number).statistics = {}) →
      (∀ asked ∈ w.asked actions, asked.number ∈ team → asked.isProper = true) →
        ((w.run actions).registry registry).size = (w.registry registry).size +
          ∑ number ∈ team, ((w.run actions).station number).statistics.memoizedUnits := by
  refine ⟨fun number hnothing hproper ↦ ?_,
    fun registry team hregistry htargets honly hteam hproper ↦ ?_⟩
  · obtain ⟨spent, hspent, hbalances⟩ := exists_account_run hproper
    rw [hnothing, Statistics.nothing_add] at hspent
    rw [hspent]
    exact ⟨hbalances.settled, hbalances.resolved, hbalances.memoized⟩
  · -- a converter that is on the registry in the end was on it when it was called
    have hon : ∀ asked ∈ w.asked actions, asked.number ∈ team → asked.registry = registry :=
      fun asked hasked hmem ↦
        (registry_of_mem_asked hasked (hproper asked hasked hmem)).symm.trans (hteam _ hmem).1
    have hsize := size_run hregistry htargets hproper honly hon
    have hnothing : w.memoizedBy team = 0 :=
      Finset.sum_eq_zero fun number hmem ↦ by rw [(hteam number hmem).2]
    rw [hnothing, Nat.add_zero] at hsize
    exact hsize

/-- Two converters on a registry of a unit of length and a unit of time. -/
def sharedUnits : Workspace :=
  ({} : Workspace).run
    [.ofMultipliers ⟨[("km", .double 1000), ("h", .double 3600)], by decide⟩, .converter 0 {},
      .converter 0 {}]

/-- One converter converts a speed, also to a unit that is unknown, and the other one asks for the
multiplier of another expression. -/
def sharedCalls : List Action :=
  [.call 0 (.single .toInternal {} (.ofDouble 1) "km/h"), .call 1 (.multiplier {} "km h"),
    .call 0 (.between false (.ofDouble 1) "km/h" "furlong")]

theorem statistics_balance_speed :
    (((sharedUnits.station 0).statistics = {} ∧ 0 < sharedUnits.registries.length) ∧
        (∀ asked ∈ sharedUnits.asked sharedCalls, asked.isProper = true) ∧
        (∀ action ∈ sharedCalls, action.targets 0 = []) ∧
        ∀ number ∈ ({0, 1} : Finset Nat),
          ((sharedUnits.run sharedCalls).station number).registry = 0 ∧
            (sharedUnits.station number).statistics = {}) ∧
      ((sharedUnits.run sharedCalls).station 0).statistics.Balances 3 0 ∧
      ((sharedUnits.run sharedCalls).registry 0).size = (sharedUnits.registry 0).size +
        ∑ number ∈ {0, 1},
          ((sharedUnits.run sharedCalls).station number).statistics.memoizedUnits := by
  have hproper : ∀ asked ∈ sharedUnits.asked sharedCalls, asked.isProper = true := by
    decide +kernel
  have htargets : ∀ action ∈ sharedCalls, action.targets 0 = [] := by decide +kernel
  have hteam : ∀ number ∈ ({0, 1} : Finset Nat),
      ((sharedUnits.run sharedCalls).station number).registry = 0 ∧
        (sharedUnits.station number).statistics = {} := by decide +kernel
  have honly : ∀ asked ∈ sharedUnits.asked sharedCalls,
      asked.memoizesIn = some 0 → asked.number ∈ ({0, 1} : Finset Nat) := by decide +kernel
  have hnumber : 0 < sharedUnits.registries.length := by decide +kernel
  obtain ⟨hledger, hsize⟩ := statistics_balance sharedUnits sharedCalls
  obtain ⟨hsettled, hresolved, hmemoized⟩ :=
    hledger 0 (hteam 0 (by decide)).2 fun asked hasked _ ↦ hproper asked hasked
  have hattempts : tally Call.attempts 0 (sharedUnits.asked sharedCalls) = 3 := by decide +kernel
  have hgiven : tally Call.given 0 (sharedUnits.asked sharedCalls) = 0 := by decide +kernel
  rw [hattempts] at hsettled
  rw [hgiven] at hresolved
  exact ⟨⟨⟨(hteam 0 (by decide)).2, hnumber⟩, hproper, htargets, hteam⟩,
    ⟨hsettled, hresolved, hmemoized⟩,
    hsize 0 {0, 1} hnumber htargets honly hteam fun asked hasked _ ↦ hproper asked hasked⟩

end Metrology.Workspace
