import Metrology.Proofs.Settings.Loading
import Metrology.Proofs.Settings.Registry

/-!
# What building a registry gives

Adding units to a registry fails exactly if one of their symbols is that of a nonlinear unit. If it
succeeds each added symbol has its multiplier, as a double, and all else is as it was, but for the
size, which grows by the symbols that are new (`Settings.Adds`). The order of the units makes no
difference to any of this (`Settings.buildRegistry_outcome`).

A registry is built on a copy of its base, unit by unit, and stops where one is refused. That is
`Workspace.buildInPlace`; it gives what `Settings.buildRegistry` says, and whether it succeeds or
stops half way, the registries that were there before are as they were.
-/

namespace Metrology

namespace Settings

variable {r r' r'' : Registry} {symbol : RawText} {entry : RawText × Scalar}
  {units units' : List (RawText × Scalar)}

/-! ### Inserting -/

theorem linear?_insert (r : Registry) (symbol key : RawText) (multiplier : Scalar) :
    ({ r with linear := r.linear.insert symbol multiplier } : Registry).linear? key =
      if key = symbol then some multiplier else r.linear? key :=
  SymbolMap.get?_insert _ _ _ _

theorem contains_insert_of_ne (r : Registry) (multiplier : Scalar) {key : RawText}
    (h : key ≠ symbol) :
    ({ r with linear := r.linear.insert symbol multiplier } : Registry).contains key =
      r.contains key := by
  rw [Registry.contains, Registry.contains, SymbolMap.contains, SymbolMap.get?_insert, if_neg h]
  rfl

/-- Inserting a symbol that is not nonlinear adds one to the size, if the symbol is new. -/
theorem size_insert (hfree : r.nonlinear? symbol = none) (multiplier : Scalar) :
    ({ r with linear := r.linear.insert symbol multiplier } : Registry).size =
      r.size + if r.contains symbol then 0 else 1 := by
  have hcontains : r.contains symbol = true ↔ symbol ∈ r.linear.keys := by
    rw [Registry.contains_iff, List.mem_append, or_iff_left (SymbolMap.get?_eq_none_iff.1 hfree)]
  rw [Registry.size, Registry.size, SymbolMap.size_insert]
  by_cases hmem : symbol ∈ r.linear.keys
  · rw [if_pos hmem, if_pos (hcontains.2 hmem), Nat.add_zero]
  · rw [if_neg hmem, if_neg (mt hcontains.1 hmem)]
    exact Nat.add_right_comm _ _ _

/-! ### One unit -/

/-- A unit that can be used is inserted unless its symbol is nonlinear. -/
theorem exists_addUnit (husable : entry.2.isUsable = true)
    (hfree : r.nonlinear? entry.1 = none) :
    ∃ x : Double, entry.2.toDouble = .ok x ∧
      addUnit r entry = .ok { r with linear := r.linear.insert entry.1 (.double x) } := by
  obtain ⟨x, hx, hfinite⟩ := Scalar.exists_toDouble_of_isUsable husable
  refine ⟨x, hx, ?_⟩
  rw [addUnit, Registry.insertScalar_eq_ok_iff.2 ⟨x, hx, hfinite, hfree, rfl⟩]

theorem nonlinear?_eq_none_of_addUnit (h : addUnit r entry = .ok r') :
    r.nonlinear? entry.1 = none := by
  obtain ⟨-, -, -, hfree, -⟩ := Registry.insertScalar_eq_ok_iff.1 (insertScalar_of_addUnit h)
  exact hfree

/-! ### All units -/

/-- A registry is another one with added units. -/
structure Adds (units : List (RawText × Scalar)) (r r' : Registry) : Prop where
  added : ∀ {symbol : RawText} {multiplier : Scalar}, (symbol, multiplier) ∈ units →
    ∃ x : Double, multiplier.toDouble = .ok x ∧ r'.linear? symbol = some (.double x)
  kept : ∀ {symbol : RawText}, symbol ∉ units.map Prod.fst → r'.linear? symbol = r.linear? symbol
  nonlinear_eq : r'.nonlinear = r.nonlinear
  /-- The symbols that are new. -/
  size_eq : r'.size = r.size + (units.map Prod.fst).countP fun symbol ↦ !r.contains symbol

namespace Adds

theorem nil (r : Registry) : Adds [] r r :=
  ⟨fun hmem ↦ absurd hmem List.not_mem_nil, fun _ ↦ rfl, rfl, rfl⟩

/-- A unit that is inserted first is not overwritten, since no other one has its symbol. -/
theorem cons {x : Double} (hnew : entry.1 ∉ units.map Prod.fst)
    (hfree : r.nonlinear? entry.1 = none) (hx : entry.2.toDouble = .ok x)
    (h : Adds units { r with linear := r.linear.insert entry.1 (.double x) } r') :
    Adds (entry :: units) r r' := by
  have hsame : ∀ key ∈ units.map Prod.fst, (!Registry.contains
      { r with linear := r.linear.insert entry.1 (.double x) } key) = !r.contains key :=
    fun key hkey ↦ congrArg (!·) (contains_insert_of_ne r _ (ne_of_mem_of_not_mem hkey hnew))
  refine ⟨fun {key multiplier} hmem ↦ ?_, fun {key} hkey ↦ ?_, h.nonlinear_eq, ?_⟩
  · rcases List.mem_cons.1 hmem with rfl | hmem
    · exact ⟨x, hx, by rw [h.kept hnew, linear?_insert, if_pos rfl]⟩
    · exact h.added hmem
  · rw [List.map_cons, List.mem_cons, not_or] at hkey
    rw [h.kept hkey.2, linear?_insert, if_neg hkey.1]
  · have hcount := List.countP_congr fun key hkey ↦ iff_of_eq (congrArg (· = true) (hsame key hkey))
    rw [h.size_eq, size_insert hfree, hcount, List.map_cons, List.countP_cons]
    rcases r.contains entry.1 with _ | _
    · show r.size + 1 + _ = r.size + (_ + 1)
      omega
    · rfl

end Adds

/-- Units that can be used, each under a symbol of its own, are added if no symbol is nonlinear. -/
theorem exists_adds (hkeys : (units.map Prod.fst).Nodup)
    (husable : ∀ entry ∈ units, entry.2.isUsable = true)
    (hfree : ∀ symbol ∈ units.map Prod.fst, r.nonlinear? symbol = none) :
    ∃ r', units.foldlM addUnit r = .ok r' ∧ Adds units r r' := by
  induction units generalizing r with
  | nil => exact ⟨r, rfl, .nil r⟩
  | cons entry units ih =>
    obtain ⟨hnew, hrest⟩ := List.nodup_cons.1 hkeys
    obtain ⟨hentry, hunits⟩ := List.forall_mem_cons.1 husable
    rw [List.map_cons, List.forall_mem_cons] at hfree
    obtain ⟨x, hx, hadd⟩ := exists_addUnit hentry hfree.1
    obtain ⟨r', hr', hadds⟩ := @ih { r with linear := r.linear.insert entry.1 (.double x) } hrest
      hunits hfree.2
    exact ⟨r', by rw [List.foldlM_cons, hadd]; exact hr', hadds.cons hnew hfree.1 hx⟩

/-- Where units are added, none of their symbols is nonlinear. -/
theorem nonlinear?_eq_none_of_foldlM (h : units.foldlM addUnit r = .ok r') :
    ∀ symbol ∈ units.map Prod.fst, r.nonlinear? symbol = none := by
  induction units generalizing r with
  | nil => exact fun _ hmem ↦ absurd hmem List.not_mem_nil
  | cons entry units ih =>
    rw [List.foldlM_cons] at h
    obtain ⟨r₁, hfirst, hrest⟩ := exists_of_bind_eq_ok h
    refine List.forall_mem_cons.2 ⟨nonlinear?_eq_none_of_addUnit hfirst, fun symbol hmem ↦ ?_⟩
    rw [Registry.nonlinear?, ← nonlinear_of_addUnit hfirst]
    exact ih hrest symbol hmem

theorem exists_foldlM_iff (hkeys : (units.map Prod.fst).Nodup)
    (husable : ∀ entry ∈ units, entry.2.isUsable = true) :
    (∃ r', units.foldlM addUnit r = .ok r') ↔
      ∀ symbol ∈ units.map Prod.fst, r.nonlinear? symbol = none := by
  refine ⟨fun ⟨r', hr'⟩ ↦ nonlinear?_eq_none_of_foldlM hr', fun hfree ↦ ?_⟩
  obtain ⟨r', hr', -⟩ := exists_adds hkeys husable hfree
  exact ⟨r', hr'⟩

theorem adds_of_foldlM (hkeys : (units.map Prod.fst).Nodup)
    (husable : ∀ entry ∈ units, entry.2.isUsable = true) (h : units.foldlM addUnit r = .ok r') :
    Adds units r r' := by
  obtain ⟨r₁, hr₁, hadds⟩ := exists_adds hkeys husable (nonlinear?_eq_none_of_foldlM h)
  obtain rfl : r' = r₁ := Except.ok.inj (h.symm.trans hr₁)
  exact hadds

/-! ### The order of the units -/

/-- What stands under a symbol does not depend on the order in which units are added. -/
theorem Adds.linear?_eq_of_perm (hr : Adds units r r') (hr' : Adds units' r r'')
    (h : units'.Perm units) (symbol : RawText) : r''.linear? symbol = r'.linear? symbol := by
  by_cases hmem : symbol ∈ units.map Prod.fst
  · obtain ⟨⟨symbol, multiplier⟩, hunit, rfl⟩ := List.mem_map.1 hmem
    obtain ⟨x, hx, hlinear⟩ := hr.added hunit
    obtain ⟨y, hy, hlinear'⟩ := hr'.added (h.mem_iff.2 hunit)
    obtain rfl : x = y := Except.ok.inj (hx.symm.trans hy)
    rw [hlinear, hlinear']
  · rw [hr.kept hmem, hr'.kept (mt (h.map Prod.fst).mem_iff.1 hmem)]

theorem Adds.size_eq_of_perm (hr : Adds units r r') (hr' : Adds units' r r'')
    (h : units'.Perm units) : r''.size = r'.size := by
  rw [hr.size_eq, hr'.size_eq, (h.map Prod.fst).countP_eq]

/-- Registries with the same look-ups list the same symbols. -/
theorem symbols_eq_of_linear?_eq (hlinear : ∀ symbol, r''.linear? symbol = r'.linear? symbol)
    (hnonlinear : r''.nonlinear = r'.nonlinear) : r''.symbols = r'.symbols := by
  have hkeys : r''.linear.keys.Perm r'.linear.keys := by
    refine (List.perm_ext_iff_of_nodup r''.linear.nodup_keys r'.linear.nodup_keys).2 fun symbol ↦ ?_
    have hsome := congrArg (Option.isSome ·) (hlinear symbol)
    exact SymbolMap.contains_iff_mem_keys.symm.trans
      ((iff_of_eq (congrArg (· = true) hsome)).trans SymbolMap.contains_iff_mem_keys)
  have hall : (r''.linear.keys ++ r''.nonlinear.keys).Perm
      (r'.linear.keys ++ r'.nonlinear.keys) := by
    rw [hnonlinear]
    exact hkeys.append_right _
  have hperm : r''.symbols.Perm r'.symbols :=
    (List.mergeSort_perm _ _).trans (hall.trans (List.mergeSort_perm _ _).symm)
  exact hperm.eq_of_pairwise
    (fun s t _ _ hst hts ↦ RawText.le_antisymm (of_decide_eq_true hst) (of_decide_eq_true hts))
    r''.sorted_symbols r'.sorted_symbols

/-- Units in another order can be used as well, each under a symbol of its own. -/
theorem usable_of_perm (hkeys : (units.map Prod.fst).Nodup)
    (husable : ∀ entry ∈ units, entry.2.isUsable = true) (h : units'.Perm units) :
    (units'.map Prod.fst).Nodup ∧ ∀ entry ∈ units', entry.2.isUsable = true :=
  ⟨(h.map Prod.fst).nodup_iff.2 hkeys, fun entry hmem ↦ husable entry (h.mem_iff.1 hmem)⟩

/-- Whether units are added does not depend on their order. -/
theorem exists_foldlM_iff_of_perm (hkeys : (units.map Prod.fst).Nodup)
    (husable : ∀ entry ∈ units, entry.2.isUsable = true) (h : units'.Perm units) :
    (∃ r', units'.foldlM addUnit r = .ok r') ↔ ∃ r', units.foldlM addUnit r = .ok r' := by
  obtain ⟨hkeys', husable'⟩ := usable_of_perm hkeys husable h
  rw [exists_foldlM_iff hkeys' husable', exists_foldlM_iff hkeys husable]
  simp only [(h.map Prod.fst).mem_iff]

/-- In which order units are added makes no difference to what is looked up, counted or listed. -/
theorem same_of_perm (hr : Adds units r r') (hr' : Adds units' r r'') (h : units'.Perm units) :
    (∀ symbol, r''.linear? symbol = r'.linear? symbol) ∧ r''.nonlinear = r'.nonlinear ∧
      r''.size = r'.size ∧ r''.symbols = r'.symbols := by
  have hlinear : ∀ symbol, r''.linear? symbol = r'.linear? symbol := hr.linear?_eq_of_perm hr' h
  have hnonlinear : r''.nonlinear = r'.nonlinear := hr'.nonlinear_eq.trans hr.nonlinear_eq.symm
  exact ⟨hlinear, hnonlinear, hr.size_eq_of_perm hr' h, symbols_eq_of_linear?_eq hlinear hnonlinear⟩

end Settings

/-! ### Building in place -/

namespace Workspace

variable {w : Workspace}

/-- Adds units to the registry of a number, one after the other, until one is refused. -/
def addUnits (w : Workspace) (number : Nat) :
    List (RawText × Scalar) → Except Failure Unit × Workspace
  | [] => (.ok (), w)
  | entry :: units =>
    match w.updateRegistry number (Settings.addUnit · entry) with
    | (.ok (), w) => w.addUnits number units
    | (.error e, w) => (.error e, w)

/-- Builds the registry that settings ask for on a copy of a base, or on the built-in units. -/
def buildInPlace (w : Workspace) (s : Settings) (base : Option Nat) :
    Except Failure Nat × Workspace :=
  let (number, w) := w.addRegistry ((base.map w.registry).getD Registry.builtIn)
  (w.addUnits number s.extraUnits).map (Except.map fun _ ↦ number) id

/-- Adding units leaves every other registry as it is. -/
theorem registry_addUnits_of_ne (w : Workspace) (units : List (RawText × Scalar))
    {number other : Nat} (h : other ≠ number) :
    (w.addUnits number units).2.registry other = w.registry other := by
  induction units generalizing w with
  | nil => rfl
  | cons entry units ih =>
    have hupdate : (w.updateRegistry number (Settings.addUnit · entry)).2.registry other =
        w.registry other :=
      (w.registry_updateRegistry number other (Settings.addUnit · entry)).resolve_right
        fun hsame ↦ h hsame.1.symm
    rw [addUnits]
    generalize w.updateRegistry number (Settings.addUnit · entry) = outcome at hupdate ⊢
    rcases outcome with ⟨e | _, after⟩
    · exact hupdate
    · exact (ih after).trans hupdate

/-- Adding units one after the other gives the registry with all of them. -/
theorem addUnits_eq (units : List (RawText × Scalar)) {number : Nat}
    (h : number < w.registries.length) :
    (w.addUnits number units).1.map (fun _ ↦ (w.addUnits number units).2.registry number) =
      units.foldlM Settings.addUnit (w.registry number) := by
  induction units generalizing w with
  | nil => rfl
  | cons entry units ih =>
    rw [addUnits, List.foldlM_cons]
    rcases hadd : Settings.addUnit (w.registry number) entry with e | r
    · simp only [updateRegistry, hadd]
      rfl
    · simp only [updateRegistry, hadd]
      have hlength : number < (w.registries.set number r).length := by rwa [List.length_set]
      have hset : ({ w with registries := w.registries.set number r } : Workspace).registry number =
          r := by
        show ((w.registries.set number r)[number]?).getD ∅ = r
        rw [getElem?_set_getD, if_pos ⟨rfl, h⟩]
      have hrest := @ih { w with registries := w.registries.set number r } hlength
      rw [hset] at hrest
      exact hrest

/-- Built in place, a registry is the one that is asked for. -/
theorem buildInPlace_eq (w : Workspace) (s : Settings) (base : Option Nat) :
    (w.buildInPlace s base).1.map (w.buildInPlace s base).2.registry =
      s.buildRegistry (base.map w.registry) := by
  let r := (base.map w.registry).getD Registry.builtIn
  have hlength : w.registries.length < (w.addRegistry r).2.registries.length := by
    show _ < (w.registries ++ [r]).length
    rw [List.length_append]
    exact Nat.lt_succ_self _
  have hadd := addUnits_eq s.extraUnits hlength
  rw [registry_addRegistry, if_pos rfl] at hadd
  rw [Settings.buildRegistry, ← hadd, buildInPlace]
  show Except.map _ (Except.map _ ((w.addRegistry r).2.addUnits _ _).1) = _
  rcases ((w.addRegistry r).2.addUnits w.registries.length s.extraUnits).1 with e | _ <;> rfl

/-- Whether building succeeds or stops half way, the registries there were are as they were. -/
theorem registry_buildInPlace (w : Workspace) (s : Settings) (base : Option Nat) {number : Nat}
    (h : number < w.registries.length) :
    (w.buildInPlace s base).2.registry number = w.registry number := by
  let r := (base.map w.registry).getD Registry.builtIn
  show ((w.addRegistry r).2.addUnits w.registries.length s.extraUnits).2.registry number = _
  rw [registry_addUnits_of_ne _ _ h.ne, registry_addRegistry, if_neg h.ne]

end Workspace

namespace Settings

variable {s : Settings} {r : Registry} {base : Option Registry}

/-- The only failure is that an added symbol is one of the nonlinear units of the base. -/
theorem refused_of_buildRegistry {e : Failure} (h : s.Valid)
    (he : s.buildRegistry base = .error e) : ∃ symbol ∈ s.extraUnits.map Prod.fst,
      ((base.getD Registry.builtIn).nonlinear? symbol).isSome = true ∧
        e = .settings (.refusedExtraUnit symbol (.registeredNonlinear symbol)) := by
  obtain ⟨entry, hmem, hentry⟩ := refusal_of_buildRegistry h.isUsable he
  cases hentry with
  | registered hnonlinear =>
    exact ⟨entry.1, List.mem_map_of_mem hmem, by rw [hnonlinear]; rfl, rfl⟩

theorem adds_of_buildRegistry (h : s.Valid) (hr : s.buildRegistry base = .ok r) :
    Adds s.extraUnits (base.getD Registry.builtIn) r :=
  adds_of_foldlM h.nodup h.isUsable hr

/-- **What building a registry gives.** It fails exactly if an added symbol is that of a nonlinear
unit of the base, and with an error of the settings that names such a symbol; otherwise the registry
is the base with the added units. The order of the units makes no difference to success, look-ups,
size and list of symbols. And built in place, on a copy, the registry is the same, and those there
were before are as they were, also where building stops half way. -/
theorem buildRegistry_outcome (h : s.Valid) (base : Option Registry) :
    let r := base.getD Registry.builtIn
    ((∃ e, s.buildRegistry base = .error e) ↔
      ∃ symbol ∈ s.extraUnits.map Prod.fst, (r.nonlinear? symbol).isSome = true) ∧
    (∀ e, s.buildRegistry base = .error e → e.className = "ConfigurationError" ∧
      ∃ symbol ∈ s.extraUnits.map Prod.fst, (r.nonlinear? symbol).isSome = true ∧
        e = .settings (.refusedExtraUnit symbol (.registeredNonlinear symbol))) ∧
    (∀ r', s.buildRegistry base = .ok r' → Adds s.extraUnits r r') ∧
    (∀ t : Settings, t.extraUnits.Perm s.extraUnits →
      ((∃ r', t.buildRegistry base = .ok r') ↔ ∃ r', s.buildRegistry base = .ok r') ∧
      ∀ r' r'', s.buildRegistry base = .ok r' → t.buildRegistry base = .ok r'' →
        (∀ symbol, r''.linear? symbol = r'.linear? symbol) ∧ r''.nonlinear = r'.nonlinear ∧
          r''.size = r'.size ∧ r''.symbols = r'.symbols) ∧
    ∀ (w : Workspace) (number : Option Nat), base = number.map w.registry →
      (w.buildInPlace s number).1.map (w.buildInPlace s number).2.registry =
        s.buildRegistry base ∧
      ∀ other < w.registries.length,
        (w.buildInPlace s number).2.registry other = w.registry other := by
  intro r
  refine ⟨⟨fun ⟨e, he⟩ ↦ ?_, fun ⟨symbol, hmem, hsome⟩ ↦ ?_⟩, fun e he ↦ ?_,
    fun _ ↦ adds_of_buildRegistry h, fun t hperm ↦ ?_, fun w number hbase ↦ ?_⟩
  · obtain ⟨symbol, hmem, hsome, -⟩ := refused_of_buildRegistry h he
    exact ⟨symbol, hmem, hsome⟩
  · rcases hbuild : s.buildRegistry base with e | r'
    · exact ⟨e, rfl⟩
    · rw [nonlinear?_eq_none_of_foldlM hbuild symbol hmem] at hsome
      exact absurd hsome (by simp)
  · obtain ⟨symbol, hmem, hsome, rfl⟩ := refused_of_buildRegistry h he
    exact ⟨rfl, symbol, hmem, hsome, rfl⟩
  · obtain ⟨hkeys, husable⟩ := usable_of_perm h.nodup h.isUsable hperm
    exact ⟨exists_foldlM_iff_of_perm h.nodup h.isUsable hperm, fun r' r'' hr' hr'' ↦
      same_of_perm (adds_of_buildRegistry h hr') (adds_of_foldlM hkeys husable hr'') hperm⟩
  · subst hbase
    exact ⟨w.buildInPlace_eq s number, fun other ↦ w.registry_buildInPlace s number⟩

/-- Settings that add a unit of counting. -/
def countSettings : Settings := { extraUnits := [(.ofString "item", .int 1)] }

/-- Over a registry without entries the unit of counting is the one that is there. -/
theorem buildRegistry_count : countSettings.Valid ∧
    ∃ r, countSettings.buildRegistry (some ∅) = .ok r ∧
      r.linear? "item" = some (.double (Double.ofInt 1)) ∧ r.size = 1 := by
  have hfinite : (Double.ofInt 1).isFinite = true := by
    rw [← Nat.cast_one]
    exact Double.isFinite_one
  have hone : (Scalar.int 1).toDouble = .ok (Double.ofInt 1) := by
    rw [Scalar.toDouble, if_pos hfinite]
  have husable : (Scalar.int 1).isUsable = true := by
    rw [Scalar.isUsable, hfinite]
    rfl
  have hvalid : countSettings.Valid := by
    refine ⟨by decide, List.pairwise_singleton _ _, ?_, ?_⟩
    · exact fun entry hmem ↦ List.mem_singleton.1 hmem ▸ by decide
    · exact fun entry hmem ↦ List.mem_singleton.1 hmem ▸ husable
  obtain ⟨hfails, -, hadds, -⟩ := buildRegistry_outcome hvalid (some ∅)
  rcases hbuild : countSettings.buildRegistry (some ∅) with e | r
  · obtain ⟨symbol, -, hsome⟩ := hfails.1 ⟨e, hbuild⟩
    exact absurd (show (none : Option NonlinearUnit).isSome = true from hsome) (by simp)
  · have hr := hadds r hbuild
    obtain ⟨x, hx, hlinear⟩ := hr.added (List.mem_singleton_self _)
    obtain rfl : Double.ofInt 1 = x := Except.ok.inj (hone.symm.trans hx)
    exact ⟨hvalid, r, rfl, hlinear, hr.size_eq⟩

end Settings

end Metrology
