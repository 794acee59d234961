import Mathlib.Data.List.Basic
import Metrology.Proofs.Converter.Call
import Metrology.Workspace

/-!
# The registries of a workspace

What each operation on a workspace leaves of its registries and of its converters: the registry of
every number, and the registry and the preferences of every converter.

Numbers are never given up, so a registry is only ever changed in its place. Two ways of changing
matter: a write that succeeds (`registry_updateRegistry`), and the use of a converter, which leaves
every registry grown by memoizing (`Workspace.Used`).
-/

namespace Metrology.Workspace

variable {w w' : Workspace}

/-! ### Looking up by number -/

theorem getElem?_set_getD {α : Type} (l : List α) (index number : Nat) (a byDefault : α) :
    ((l.set index a)[number]?).getD byDefault =
      if index = number ∧ index < l.length then a else (l[number]?).getD byDefault := by
  rw [List.getElem?_set]
  by_cases heq : index = number
  · subst heq
    by_cases hlt : index < l.length
    · simp [hlt]
    · simp [hlt]
  · simp [heq]

/-- The new registry has the new number. -/
theorem registry_addRegistry (w : Workspace) (r : Registry) (number : Nat) :
    (w.addRegistry r).2.registry number =
      if number = w.registries.length then r else w.registry number := by
  show ((w.registries ++ [r])[number]?).getD ∅ = _
  rcases lt_trichotomy number w.registries.length with hlt | heq | hgt
  · rw [List.getElem?_append_left hlt, if_neg hlt.ne]
    rfl
  · subst heq
    rw [if_pos rfl, List.getElem?_concat_length]
    rfl
  · have hlength : (w.registries ++ [r]).length ≤ number := by
      rw [List.length_append, List.length_singleton]
      omega
    rw [if_neg hgt.ne', registry, List.getElem?_eq_none hlength, List.getElem?_eq_none hgt.le]

theorem registry_updateRegistry (w : Workspace) (target number : Nat)
    (change : Registry → Except Failure Registry) :
    (w.updateRegistry target change).2.registry number = w.registry number ∨
      target = number ∧
        change (w.registry number) = .ok ((w.updateRegistry target change).2.registry number) := by
  rcases hchange : change (w.registry target) with e | r
  · refine Or.inl ?_
    simp only [updateRegistry, hchange]
  · have hset : (w.updateRegistry target change).2.registry number =
        if target = number ∧ target < w.registries.length then r else w.registry number := by
      simp only [updateRegistry, hchange]
      exact getElem?_set_getD _ _ _ _ _
    rw [hset]
    split
    · next hsame =>
      obtain ⟨rfl, -⟩ := hsame
      exact Or.inr ⟨rfl, hchange⟩
    · exact Or.inl rfl

theorem length_updateRegistry (w : Workspace) (target : Nat)
    (change : Registry → Except Failure Registry) :
    (w.updateRegistry target change).2.registries.length = w.registries.length := by
  rcases hchange : change (w.registry target) with e | r
  · simp only [updateRegistry, hchange]
  · simp only [updateRegistry, hchange, List.length_set]

/-! ### Using a converter -/

/-- Converters have been used: they are what they were, and the registries have grown by memoizing,
if any was to memoize. -/
structure Used (w : Workspace) (memoize : Bool) (w' : Workspace) : Prop where
  length_eq : w'.registries.length = w.registries.length
  station_registry : ∀ number, (w'.station number).registry = (w.station number).registry
  station_preferences : ∀ number, (w'.station number).preferences = (w.station number).preferences
  grows : ∀ number, (w.registry number).Grows (w'.registry number)
  registry_eq : memoize = false → ∀ number, w'.registry number = w.registry number

theorem used_refl (w : Workspace) (memoize : Bool) : w.Used memoize w :=
  ⟨rfl, fun _ ↦ rfl, fun _ ↦ rfl, fun _ ↦ .refl, fun _ _ ↦ rfl⟩

theorem Used.trans {memoize : Bool} {w'' : Workspace} (h : w.Used memoize w')
    (h' : w'.Used memoize w'') : w.Used memoize w'' where
  length_eq := h'.length_eq.trans h.length_eq
  station_registry number := (h'.station_registry number).trans (h.station_registry number)
  station_preferences number := (h'.station_preferences number).trans (h.station_preferences number)
  grows number := (h.grows number).trans (h'.grows number)
  registry_eq hoff number := (h'.registry_eq hoff number).trans (h.registry_eq hoff number)

/-- What is known of a use that does not memoize is known of any use. -/
theorem Used.weaken {memoize : Bool} (h : w.Used memoize w') : w.Used true w' where
  length_eq := h.length_eq
  station_registry := h.station_registry
  station_preferences := h.station_preferences
  grows := h.grows
  registry_eq hoff := absurd hoff (by simp)

/-- Only the converter's own registry can change. -/
theorem registry_use {α : Type} (w : Workspace) (number target : Nat)
    (action : Converter → α × Converter) :
    (w.use target action).2.registry number = w.registry number ∨
      (w.station target).registry = number ∧
        (w.use target action).2.registry number = (action (w.converter target)).2.registry := by
  have hset : (w.use target action).2.registry number =
      if (w.station target).registry = number ∧ (w.station target).registry < w.registries.length
      then (action (w.converter target)).2.registry else w.registry number :=
    getElem?_set_getD _ _ _ _ _
  rw [hset]
  split
  · next hsame => exact Or.inr ⟨hsame.1, rfl⟩
  · exact Or.inl rfl

/-- A converter keeps its registry and its preferences. -/
theorem station_use {α : Type} (w : Workspace) (number target : Nat)
    (action : Converter → α × Converter) :
    ((w.use target action).2.station number).registry = (w.station number).registry ∧
      ((w.use target action).2.station number).preferences = (w.station number).preferences := by
  show (((w.stations.set target _)[number]?).getD { registry := 0 }).registry = _ ∧
    (((w.stations.set target _)[number]?).getD { registry := 0 }).preferences = _
  rw [getElem?_set_getD]
  split
  · next hsame =>
    obtain ⟨rfl, -⟩ := hsame
    exact ⟨rfl, rfl⟩
  · exact ⟨rfl, rfl⟩

/-- Using one converter, with what is to be known of the use. -/
theorem used_use {α : Type} {memoize : Bool} {target : Nat} {action : Converter → α × Converter}
    (hgrows : (w.converter target).registry.Grows (action (w.converter target)).2.registry)
    (hoff : memoize = false →
      (action (w.converter target)).2.registry = (w.converter target).registry) :
    w.Used memoize (w.use target action).2 where
  length_eq := List.length_set
  station_registry number := (w.station_use number target action).1
  station_preferences number := (w.station_use number target action).2
  grows number := by
    rcases w.registry_use number target action with hsame | ⟨rfl, hset⟩
    · rw [hsame]
      exact .refl
    · rw [hset]
      exact hgrows
  registry_eq hmemoize number := by
    rcases w.registry_use number target action with hsame | ⟨rfl, hset⟩
    · exact hsame
    · rw [hset]
      exact hoff hmemoize

/-- A call memoizes at most where its converter's registry is. -/
theorem used_call (w : Workspace) (target : Nat) (call : Call) :
    w.Used (call.memoizes (w.station target).preferences) (w.use target call.run).2 :=
  have hused := call.used_run (w.converter target)
  used_use hused.growsBy.grows hused.registry_eq

end Metrology.Workspace
