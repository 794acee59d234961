import Metrology.Proofs.Rendering.Prefix
import Metrology.Proofs.Workspace.Action

/-!
# The registry that settings ask for

Adding a unit inserts a double (`insertScalar_of_addUnit`). So the nonlinear units of the registry
that is built are those of its base, and over the built-in units its multipliers are doubles,
whatever is added (`wellBuilt_of_buildRegistry`).

A unit with a usable multiplier is refused for one reason: its symbol is that of a nonlinear unit
(`refusal_of_addUnit`). That a symbol is one does not depend on what has been added before, so the
same holds of building a registry (`refusal_of_buildRegistry`).
-/

namespace Metrology.Settings

variable {s : Settings} {r r' : Registry} {base : Option Registry} {entry : RawText × Scalar}
  {units : List (RawText × Scalar)} {e : Failure}

/-! ### One unit -/

/-- Adding a unit inserts it. -/
theorem insertScalar_of_addUnit (h : addUnit r entry = .ok r') :
    r.insertScalar entry.1 entry.2 = .ok r' := by
  rw [addUnit] at h
  split at h
  · next hinsert => exact Except.ok.inj h ▸ hinsert
  · exact absurd h (by simp)
  · exact absurd h (by simp)

theorem nonlinear_of_addUnit (h : addUnit r entry = .ok r') : r'.nonlinear = r.nonlinear := by
  obtain ⟨x, -, -, -, rfl⟩ := Registry.insertScalar_eq_ok_iff.1 (insertScalar_of_addUnit h)
  rfl

theorem onlyDoubles_of_addUnit (hr : r.OnlyDoubles) (h : addUnit r entry = .ok r') :
    r'.OnlyDoubles :=
  hr.insertScalar (insertScalar_of_addUnit h)

/-- The registry refuses a unit: its symbol is that of a nonlinear unit. -/
inductive RefusedUnit (r : Registry) (entry : RawText × Scalar) : Failure → Prop where
  | registered {unit : NonlinearUnit} (hnonlinear : r.nonlinear? entry.1 = some unit) :
      RefusedUnit r entry (.settings (.refusedExtraUnit entry.1 (.registeredNonlinear entry.1)))

/-- A multiplier that can be used is not refused for itself. -/
theorem refusal_of_addUnit (husable : entry.2.isUsable = true) (h : addUnit r entry = .error e) :
    RefusedUnit r entry e := by
  obtain ⟨x, hx, hfinite⟩ := Scalar.exists_toDouble_of_isUsable husable
  rcases hnonlinear : r.nonlinear? entry.1 with _ | unit
  · have hinsert := Registry.insertScalar_eq_ok_iff.2 ⟨x, hx, hfinite, hnonlinear, rfl⟩
    rw [addUnit, hinsert] at h
    exact absurd h (by simp)
  · have hinsert : r.insertScalar entry.1 entry.2 =
        .error (.registry (.registeredNonlinear entry.1)) := by
      have hcontains : r.nonlinear.contains entry.1 = true := by
        rw [SymbolMap.contains, ← Registry.nonlinear?, hnonlinear, Option.isSome_some]
      rw [Registry.insertScalar, hx]
      simp only [Except.mapError, bind, Except.bind, Registry.insertLinear, hfinite, hcontains]
      rfl
    rw [addUnit, hinsert] at h
    exact Except.error.inj h ▸ .registered hnonlinear

/-! ### All units -/

theorem nonlinear_of_buildRegistry (h : s.buildRegistry base = .ok r) :
    r.nonlinear = (base.getD Registry.builtIn).nonlinear :=
  foldlM_ok_induction (P := fun r ↦ r.nonlinear = (base.getD Registry.builtIn).nonlinear)
    (fun _ _ _ hr hstep ↦ (nonlinear_of_addUnit hstep).trans hr) rfl h

/-- If building fails, it fails at one of the units, and over the nonlinear units of the base. -/
theorem exists_of_foldlM_eq_error (h : units.foldlM addUnit r = .error e) :
    ∃ entry ∈ units, ∃ r', r'.nonlinear = r.nonlinear ∧ addUnit r' entry = .error e := by
  induction units generalizing r with
  | nil => exact absurd h (by simp [pure, Except.pure])
  | cons entry units ih =>
    rw [List.foldlM_cons] at h
    rcases hentry : addUnit r entry with e' | r'
    · rw [hentry] at h
      exact ⟨entry, List.mem_cons_self, r, rfl, hentry.trans h⟩
    · rw [hentry] at h
      obtain ⟨later, hlater, r'', hnonlinear, herror⟩ := ih h
      exact ⟨later, List.mem_cons_of_mem entry hlater, r'',
        hnonlinear.trans (nonlinear_of_addUnit hentry), herror⟩

/-- **Settings are refused by the registry only for a unit whose symbol is nonlinear.** -/
theorem refusal_of_buildRegistry (husable : ∀ entry ∈ s.extraUnits, entry.2.isUsable = true)
    (h : s.buildRegistry base = .error e) :
    ∃ entry ∈ s.extraUnits, RefusedUnit (base.getD Registry.builtIn) entry e := by
  obtain ⟨entry, hmem, r', hnonlinear, herror⟩ := exists_of_foldlM_eq_error h
  refine ⟨entry, hmem, ?_⟩
  cases refusal_of_addUnit (husable entry hmem) herror with
  | registered hsome =>
    rw [Registry.nonlinear?, hnonlinear] at hsome
    exact .registered hsome

/-! ### Over the built-in units -/

/-- A registry in which nothing but the failure to resolve a unit can go wrong. -/
structure WellBuilt (r : Registry) : Prop where
  valid : r.Valid
  onlyDoubles : r.OnlyDoubles
  total : r.NonlinearTotal

theorem wellBuilt_of_buildRegistry (h : s.buildRegistry none = .ok r) : WellBuilt r := by
  have hvalid := Workspace.valid_of_buildRegistry (by simp) h
  have hnonlinear := nonlinear_of_buildRegistry h
  rw [Option.getD_none] at hnonlinear
  rw [buildRegistry, Option.getD_none] at h
  exact ⟨hvalid,
    foldlM_ok_induction (fun _ _ _ hr hstep ↦ onlyDoubles_of_addUnit hr hstep)
      Registry.onlyDoubles_builtIn h,
    Registry.nonlinearTotal_builtIn.congr hnonlinear⟩

/-- The converter that settings ask for is a fresh one over their registry. -/
theorem buildConverter_eq (h : s.buildRegistry none = .ok r) :
    s.buildConverter = .ok { registry := r, preferences := s.preferences } := by
  rw [buildConverter, h]
  rfl

end Metrology.Settings
