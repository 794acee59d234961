import Mathlib.Data.List.Flatten
import Mathlib.Data.List.Induction
import Mathlib.Data.List.Nodup
import Metrology.Proofs.Registry.InPlace

/-!
# Seeding

A registry is seeded in two passes. The first looks for a symbol that occurs a second time, in one
definition, in two, or among linear and nonlinear units alike (`firstRepeated?_eq_none_iff`); the
second registers the units one after the other, and registering is strict.

Where no symbol is repeated the second pass cannot fail: the units registered so far are all that
the registry holds (`Holds`), so the symbols of the next one are free, and registering it keeps
that (`Holds.register`, `Holds.registerNonlinear`). What a registry holds is said of the lists by
membership alone, so their order makes no difference to the look-ups (`Holds.lookup_eq_of_perm`).
-/

namespace Metrology

theorem foldlM_concat_eq_ok {α β ε : Type} {f : β → α → Except ε β} {as : List α} {a : α}
    {b b' b'' : β} (h : as.foldlM f b = .ok b') (ha : f b' a = .ok b'') :
    (as ++ [a]).foldlM f b = .ok b'' := by
  rw [List.foldlM_append, h]
  show (f b' a >>= pure) = _
  rw [ha]
  rfl

namespace SymbolMap

variable {α : Type}

/-- New symbols that are not repeated all count. -/
theorem size_insertAll (value : α) {symbols : List RawText} {m : SymbolMap α}
    (hnodup : symbols.Nodup) (hnew : ∀ symbol ∈ symbols, m.get? symbol = none) :
    (m.insertAll (symbols.map (·, value))).size = m.size + symbols.length := by
  induction symbols generalizing m with
  | nil => rfl
  | cons symbol symbols ih =>
    obtain ⟨hsymbol, hnodup⟩ := List.nodup_cons.1 hnodup
    obtain ⟨hfree, hrest⟩ := List.forall_mem_cons.1 hnew
    rw [List.map_cons, insertAll, List.foldl_cons, ← insertAll, ih hnodup, size_insert,
      if_neg (get?_eq_none_iff.1 hfree), List.length_cons]
    · omega
    · intro key hkey
      rw [get?_insert, if_neg (ne_of_mem_of_not_mem hkey hsymbol)]
      exact hrest key hkey

end SymbolMap

namespace Registry

/-! ### The symbols of a table -/

variable {linear linear' : List LinearUnit} {nonlinear nonlinear' : List NonlinearUnit}

/-- All symbols of two lists of units, each as often as it occurs. -/
def allSymbols (linear : List LinearUnit) (nonlinear : List NonlinearUnit) : List RawText :=
  linear.flatMap (·.symbols) ++ nonlinear.flatMap (·.symbols)

theorem mem_allSymbols {symbol : RawText} : symbol ∈ allSymbols linear nonlinear ↔
    (∃ unit ∈ linear, symbol ∈ unit.symbols) ∨ ∃ unit ∈ nonlinear, symbol ∈ unit.symbols := by
  rw [allSymbols, List.mem_append, List.mem_flatMap, List.mem_flatMap]

theorem allSymbols_concat_linear (linear : List LinearUnit) (unit : LinearUnit) :
    allSymbols (linear ++ [unit]) [] = allSymbols linear [] ++ unit.symbols := by
  simp [allSymbols]

theorem allSymbols_concat (linear : List LinearUnit) (nonlinear : List NonlinearUnit)
    (unit : NonlinearUnit) :
    allSymbols linear (nonlinear ++ [unit]) = allSymbols linear nonlinear ++ unit.symbols := by
  simp [allSymbols]

theorem allSymbols_sublist (hlinear : linear'.Sublist linear)
    (hnonlinear : nonlinear'.Sublist nonlinear) :
    (allSymbols linear' nonlinear').Sublist (allSymbols linear nonlinear) :=
  (hlinear.flatMap _).append (hnonlinear.flatMap _)

theorem allSymbols_perm (hlinear : linear'.Perm linear) (hnonlinear : nonlinear'.Perm nonlinear) :
    (allSymbols linear' nonlinear').Perm (allSymbols linear nonlinear) :=
  (hlinear.flatMap_right _).append (hnonlinear.flatMap_right _)

/-! ### Symbols that are repeated -/

theorem firstRepeated?_eq_none_iff {seen symbols : List RawText} :
    firstRepeated? seen symbols = none ↔
      symbols.Nodup ∧ ∀ symbol ∈ symbols, symbol ∉ seen := by
  induction symbols generalizing seen with
  | nil => simp [firstRepeated?]
  | cons symbol symbols ih =>
    rw [firstRepeated?]
    split
    · next hseen => simp [hseen]
    · next hseen =>
      rw [ih, List.nodup_cons]
      simp only [List.mem_cons, not_or, forall_eq_or_imp]
      grind

/-- The symbol that is found is the first one that has occurred before. -/
theorem eq_append_of_firstRepeated? {seen symbols : List RawText} {symbol : RawText}
    (h : firstRepeated? seen symbols = some symbol) :
    ∃ before after, symbols = before ++ symbol :: after ∧
      firstRepeated? seen before = none ∧ (symbol ∈ seen ∨ symbol ∈ before) := by
  induction symbols generalizing seen with
  | nil => exact absurd h (by simp [firstRepeated?])
  | cons first symbols ih =>
    rw [firstRepeated?] at h
    split at h
    · next hseen =>
      obtain rfl : first = symbol := Option.some.inj h
      exact ⟨[], symbols, rfl, rfl, Or.inl hseen⟩
    · next hseen =>
      obtain ⟨before, after, rfl, hbefore, hmem⟩ := ih h
      refine ⟨first :: before, after, rfl, by rw [firstRepeated?, if_neg hseen, hbefore], ?_⟩
      simp only [List.mem_cons] at hmem ⊢
      tauto

/-! ### What a registry holds -/

/-- A registry holds the units of two lists and nothing else, each under all its symbols. -/
structure Holds (linear : List LinearUnit) (nonlinear : List NonlinearUnit) (r : Registry) :
    Prop where
  linear?_iff : ∀ symbol multiplier, r.linear? symbol = some multiplier ↔
    ∃ unit ∈ linear, symbol ∈ unit.symbols ∧ unit.multiplier = multiplier
  nonlinear?_iff : ∀ symbol unit, r.nonlinear? symbol = some unit ↔
    unit ∈ nonlinear ∧ symbol ∈ unit.symbols
  size_eq : r.size = (allSymbols linear nonlinear).length

namespace Holds

variable {r r' : Registry}

theorem empty : Holds [] [] ∅ :=
  ⟨fun symbol _ ↦ by simp [show linear? ∅ symbol = none from rfl],
    fun symbol _ ↦ by simp [show nonlinear? ∅ symbol = none from rfl], rfl⟩

/-- A symbol of none of the units is free. -/
theorem free (h : Holds linear nonlinear r) {symbol : RawText}
    (hsymbol : symbol ∉ allSymbols linear nonlinear) :
    r.linear? symbol = none ∧ r.nonlinear? symbol = none := by
  rw [mem_allSymbols, not_or] at hsymbol
  refine ⟨Option.eq_none_iff_forall_ne_some.2 fun multiplier hsome ↦ ?_,
    Option.eq_none_iff_forall_ne_some.2 fun unit hsome ↦ hsymbol.2 ⟨unit, ?_⟩⟩
  · obtain ⟨unit, hunit, hmem, -⟩ := (h.linear?_iff _ _).1 hsome
    exact hsymbol.1 ⟨unit, hunit, hmem⟩
  · exact (h.nonlinear?_iff _ _).1 hsome

/-- The symbols of one more unit are free if no symbol is repeated. -/
theorem free_of_nodup (h : Holds linear nonlinear r) {symbols : List RawText}
    (hnodup : (allSymbols linear nonlinear ++ symbols).Nodup) (symbol : RawText)
    (hsymbol : symbol ∈ symbols) : r.linear? symbol = none ∧ r.nonlinear? symbol = none :=
  h.free fun hold ↦ (List.nodup_append.1 hnodup).2.2 symbol hold symbol hsymbol rfl

/-- A linear unit that repeats no symbol can be registered, and is held then. -/
theorem register (h : Holds linear [] r) {unit : LinearUnit}
    (hnodup : (allSymbols (linear ++ [unit]) []).Nodup) :
    ∃ r', r.register unit = .ok r' ∧ Holds (linear ++ [unit]) [] r' := by
  rw [allSymbols_concat_linear] at hnodup
  have hfree := h.free_of_nodup hnodup
  obtain ⟨r', hr'⟩ : ∃ r', r.register unit = .ok r' := by
    refine ⟨_, register_eq_ok_iff.2 ⟨fun symbol hmem ↦ admits_iff.2 ⟨(hfree symbol hmem).2, ?_⟩,
      rfl⟩⟩
    rw [(hfree symbol hmem).1]
    exact nofun
  refine ⟨r', hr', fun symbol multiplier ↦ ?_, fun symbol nonlinear ↦ ?_, ?_⟩
  · rw [linear?_of_register hr']
    simp only [List.mem_append, List.mem_singleton, or_and_right, exists_or, exists_eq_left]
    split
    · next hmem =>
      -- no unit that is held has the symbol
      have hnone := (hfree symbol hmem).1
      have hothers : ¬∃ other ∈ linear, symbol ∈ other.symbols ∧ other.multiplier = multiplier := by
        rw [← h.linear?_iff, hnone]
        simp
      rw [or_iff_right hothers, and_iff_right hmem, Option.some.injEq]
    · next hmem => rw [h.linear?_iff, or_iff_left fun hnew ↦ hmem hnew.1]
  · rw [nonlinear?, nonlinear_of_register hr']
    exact h.nonlinear?_iff symbol nonlinear
  · obtain ⟨-, rfl⟩ := register_eq_ok_iff.1 hr'
    have hsize := SymbolMap.size_insertAll unit.multiplier (List.nodup_append.1 hnodup).2.1
      fun symbol hmem ↦ (hfree symbol hmem).1
    simp only [size, hsize, allSymbols_concat_linear, List.length_append, ← h.size_eq]
    omega

/-- Likewise a nonlinear unit. -/
theorem registerNonlinear (h : Holds linear nonlinear r) {unit : NonlinearUnit}
    (hnodup : (allSymbols linear (nonlinear ++ [unit])).Nodup) :
    ∃ r', r.registerNonlinear unit = .ok r' ∧ Holds linear (nonlinear ++ [unit]) r' := by
  rw [allSymbols_concat] at hnodup
  have hfree := h.free_of_nodup hnodup
  obtain ⟨r', hr'⟩ : ∃ r', r.registerNonlinear unit = .ok r' :=
    ⟨_, registerNonlinear_eq_ok_iff.2
      ⟨fun symbol hmem ↦ contains_eq_false_iff.2 (hfree symbol hmem), rfl⟩⟩
  refine ⟨r', hr', fun symbol multiplier ↦ ?_, fun symbol other ↦ ?_, ?_⟩
  · rw [linear?, linear_of_registerNonlinear hr']
    exact h.linear?_iff symbol multiplier
  · rw [nonlinear?_of_registerNonlinear hr']
    split
    · next hmem =>
      have hnone := (hfree symbol hmem).2
      have hothers : ¬(other ∈ nonlinear ∧ symbol ∈ other.symbols) := by
        rw [← h.nonlinear?_iff, hnone]
        simp
      rw [List.mem_append, or_and_right, or_iff_right hothers, List.mem_singleton,
        Option.some.injEq, eq_comm, iff_self_and]
      rintro rfl
      exact hmem
    · next hmem =>
      rw [h.nonlinear?_iff, List.mem_append, List.mem_singleton]
      refine and_congr_left fun hsymbol ↦ (or_iff_left ?_).symm
      rintro rfl
      exact hmem hsymbol
  · obtain ⟨-, rfl⟩ := registerNonlinear_eq_ok_iff.1 hr'
    have hsize := SymbolMap.size_insertAll unit (List.nodup_append.1 hnodup).2.1
      fun symbol hmem ↦ (hfree symbol hmem).2
    simp only [size, hsize, allSymbols_concat, List.length_append, ← h.size_eq]
    omega

/-! ### The second pass -/

/-- Linear units that repeat no symbol can be registered one after the other. -/
theorem exists_foldlM_register (linear : List LinearUnit)
    (hnodup : (allSymbols linear []).Nodup) :
    ∃ r, linear.foldlM Registry.register ∅ = .ok r ∧ Holds linear [] r := by
  induction linear using List.reverseRecOn with
  | nil => exact ⟨∅, rfl, empty⟩
  | append_singleton linear unit ih =>
    have hold := hnodup
    rw [allSymbols_concat_linear] at hold
    obtain ⟨r, hr, hholds⟩ := ih hold.of_append_left
    obtain ⟨r', hr', hholds'⟩ := hholds.register hnodup
    exact ⟨r', foldlM_concat_eq_ok hr hr', hholds'⟩

/-- Nonlinear units after them as well. -/
theorem exists_foldlM_registerNonlinear (h : Holds linear [] r) (nonlinear : List NonlinearUnit)
    (hnodup : (allSymbols linear nonlinear).Nodup) :
    ∃ r', nonlinear.foldlM Registry.registerNonlinear r = .ok r' ∧ Holds linear nonlinear r' := by
  induction nonlinear using List.reverseRecOn with
  | nil => exact ⟨r, rfl, h⟩
  | append_singleton nonlinear unit ih =>
    have hold := hnodup
    rw [allSymbols_concat] at hold
    obtain ⟨r', hr', hholds⟩ := ih hold.of_append_left
    obtain ⟨r'', hr'', hholds'⟩ := hholds.registerNonlinear hnodup
    exact ⟨r'', foldlM_concat_eq_ok hr' hr'', hholds'⟩

/-- The order of the units makes no difference to the look-ups. -/
theorem lookup_eq_of_perm (h : Holds linear nonlinear r) (h' : Holds linear' nonlinear' r')
    (hlinear : linear'.Perm linear) (hnonlinear : nonlinear'.Perm nonlinear) (symbol : RawText) :
    r'.linear? symbol = r.linear? symbol ∧ r'.nonlinear? symbol = r.nonlinear? symbol := by
  refine ⟨Option.ext fun multiplier ↦ ?_, Option.ext fun unit ↦ ?_⟩
  · rw [h.linear?_iff, h'.linear?_iff]
    simp only [hlinear.mem_iff]
  · rw [h.nonlinear?_iff, h'.nonlinear?_iff, hnonlinear.mem_iff]

end Holds

/-! ### Seeding -/

/-- The first pass refuses the first symbol that is repeated. -/
theorem exists_of_not_nodup (h : ¬(allSymbols linear nonlinear).Nodup) :
    ∃ before symbol after, allSymbols linear nonlinear = before ++ symbol :: after ∧
      before.Nodup ∧ symbol ∈ before ∧
      seed linear nonlinear = .error (.repeatedInSeed symbol) := by
  rcases hfound : firstRepeated? [] (allSymbols linear nonlinear) with _ | symbol
  · exact absurd (firstRepeated?_eq_none_iff.1 hfound).1 h
  · obtain ⟨before, after, hsplit, hbefore, hmem⟩ := eq_append_of_firstRepeated? hfound
    refine ⟨before, symbol, after, hsplit, (firstRepeated?_eq_none_iff.1 hbefore).1,
      hmem.resolve_left List.not_mem_nil, ?_⟩
    rw [allSymbols] at hfound
    rw [seed, hfound]

/-- Where none is, the second pass gives a registry that holds all the units. -/
theorem exists_of_nodup (h : (allSymbols linear nonlinear).Nodup) :
    ∃ r₀ r, linear.foldlM register ∅ = .ok r₀ ∧ nonlinear.foldlM registerNonlinear r₀ = .ok r ∧
      seed linear nonlinear = .ok r ∧ Holds linear nonlinear r := by
  have hlinear : (allSymbols linear []).Nodup :=
    h.sublist (allSymbols_sublist (List.Sublist.refl _) (List.nil_sublist _))
  obtain ⟨r₀, hr₀, hholds₀⟩ := Holds.exists_foldlM_register linear hlinear
  obtain ⟨r, hr, hholds⟩ := hholds₀.exists_foldlM_registerNonlinear nonlinear h
  refine ⟨r₀, r, hr₀, hr, ?_, hholds⟩
  have hnone := firstRepeated?_eq_none_iff.2 ⟨h, fun _ _ ↦ List.not_mem_nil⟩
  rw [allSymbols] at hnone
  rw [seed, hnone]
  show (linear.foldlM register ∅ >>= _) = _
  rw [hr₀]
  exact hr

theorem seed_isOk_iff : (∃ r, seed linear nonlinear = .ok r) ↔
    (allSymbols linear nonlinear).Nodup := by
  refine ⟨fun ⟨r, hr⟩ ↦ by_contra fun h ↦ ?_, fun h ↦ ?_⟩
  · obtain ⟨_, _, _, _, _, _, herror⟩ := exists_of_not_nodup h
    rw [herror] at hr
    exact nomatch hr
  · obtain ⟨-, r, -, -, hr, -⟩ := exists_of_nodup h
    exact ⟨r, hr⟩

theorem not_nodup_of_seed_eq_error {e : RegistryError} (h : seed linear nonlinear = .error e) :
    ¬(allSymbols linear nonlinear).Nodup := by
  intro hnodup
  obtain ⟨r, hr⟩ := seed_isOk_iff.2 hnodup
  rw [hr] at h
  exact nomatch h

theorem holds_of_seed {r : Registry} (h : seed linear nonlinear = .ok r) :
    Holds linear nonlinear r := by
  obtain ⟨_, r', _, _, hr', hholds⟩ := exists_of_nodup (seed_isOk_iff.1 ⟨r, h⟩)
  obtain rfl : r' = r := Except.ok.inj (hr'.symm.trans h)
  exact hholds

/-- The nonlinear units of the built-in registry are those of the table. -/
theorem mem_nonlinear_of_builtIn {symbol : RawText} {unit : NonlinearUnit}
    (h : builtIn.nonlinear? symbol = some unit) : unit ∈ UnitTable.nonlinear := by
  delta builtIn at h
  split at h
  · next r hseed => exact (((holds_of_seed hseed).nonlinear?_iff symbol unit).1 h).1
  · exact nomatch h

/-! ### No conflicts -/

/-- When a linear unit's turn comes, its symbols are free. -/
theorem exists_before_linear (h : (allSymbols linear nonlinear).Nodup)
    {before after : List LinearUnit} {unit : LinearUnit}
    (hlinear : linear = before ++ unit :: after) :
    ∃ r, before.foldlM register ∅ = .ok r ∧
      (∀ symbol ∈ unit.symbols, r.contains symbol = false) ∧ ∃ r', r.register unit = .ok r' := by
  have hnodup : (allSymbols (before ++ [unit]) []).Nodup := by
    refine h.sublist (allSymbols_sublist ?_ (List.nil_sublist _))
    rw [hlinear, List.append_cons before unit after]
    exact List.sublist_append_left _ _
  have hsymbols := hnodup
  rw [allSymbols_concat_linear] at hsymbols
  obtain ⟨r, hr, hholds⟩ := Holds.exists_foldlM_register before hsymbols.of_append_left
  obtain ⟨r', hr', -⟩ := hholds.register hnodup
  exact ⟨r, hr,
    fun symbol hmem ↦ contains_eq_false_iff.2 (hholds.free_of_nodup hsymbols symbol hmem), r', hr'⟩

/-- So are a nonlinear unit's, with all linear units and the nonlinear ones before it there. -/
theorem exists_before_nonlinear (h : (allSymbols linear nonlinear).Nodup)
    {before after : List NonlinearUnit} {unit : NonlinearUnit}
    (hnonlinear : nonlinear = before ++ unit :: after) :
    ∃ r₀ r, linear.foldlM register ∅ = .ok r₀ ∧ before.foldlM registerNonlinear r₀ = .ok r ∧
      (∀ symbol ∈ unit.symbols, r.contains symbol = false) ∧
      ∃ r', r.registerNonlinear unit = .ok r' := by
  have hnodup : (allSymbols linear (before ++ [unit])).Nodup := by
    refine h.sublist (allSymbols_sublist (List.Sublist.refl _) ?_)
    rw [hnonlinear, List.append_cons before unit after]
    exact List.sublist_append_left _ _
  have hsymbols := hnodup
  rw [allSymbols_concat] at hsymbols
  obtain ⟨r₀, r, hr₀, hr, -, hholds⟩ := exists_of_nodup hsymbols.of_append_left
  obtain ⟨r', hr', -⟩ := hholds.registerNonlinear hnodup
  exact ⟨r₀, r, hr₀, hr,
    fun symbol hmem ↦ contains_eq_false_iff.2 (hholds.free_of_nodup hsymbols symbol hmem), r', hr'⟩

/-- **What is seeded is what is listed.** Seeding fails exactly if a symbol occurs more than once in
the two lists together, and names the first that does. Otherwise the registry holds each unit of the
lists under each of its symbols, and nothing else; whichever unit's turn it is, its symbols are free
and registering it succeeds. The order of the lists makes no difference to success or look-ups. -/
theorem seed_outcome (linear : List LinearUnit) (nonlinear : List NonlinearUnit) :
    ((∃ e, seed linear nonlinear = .error e ∧ (Failure.registry e).className = "ValueError") ↔
      ∃ symbol, 1 < (allSymbols linear nonlinear).count symbol) ∧
    (∀ e, seed linear nonlinear = .error e → ∃ before symbol after,
      allSymbols linear nonlinear = before ++ symbol :: after ∧ before.Nodup ∧ symbol ∈ before ∧
        e = .repeatedInSeed symbol) ∧
    ((∀ symbol, (allSymbols linear nonlinear).count symbol ≤ 1) →
      (∃ r, seed linear nonlinear = .ok r ∧ Holds linear nonlinear r) ∧
      (∀ before unit after, linear = before ++ unit :: after →
        ∃ r, before.foldlM register ∅ = .ok r ∧
          (∀ symbol ∈ unit.symbols, r.contains symbol = false) ∧
          ∃ r', r.register unit = .ok r') ∧
      ∀ before unit after, nonlinear = before ++ unit :: after →
        ∃ r₀ r, linear.foldlM register ∅ = .ok r₀ ∧ before.foldlM registerNonlinear r₀ = .ok r ∧
          (∀ symbol ∈ unit.symbols, r.contains symbol = false) ∧
          ∃ r', r.registerNonlinear unit = .ok r') ∧
    ∀ linear' nonlinear', linear'.Perm linear → nonlinear'.Perm nonlinear →
      ((∃ r', seed linear' nonlinear' = .ok r') ↔ ∃ r, seed linear nonlinear = .ok r) ∧
      ∀ r r', seed linear nonlinear = .ok r → seed linear' nonlinear' = .ok r' → ∀ symbol,
        r'.linear? symbol = r.linear? symbol ∧ r'.nonlinear? symbol = r.nonlinear? symbol := by
  refine ⟨?_, fun e he ↦ ?_, fun hcount ↦ ?_, fun linear' nonlinear' hlinear hnonlinear ↦ ?_⟩
  · simp only [← not_le, ← not_forall, ← List.nodup_iff_count_le_one]
    refine ⟨fun ⟨e, he, _⟩ ↦ not_nodup_of_seed_eq_error he, fun hrepeated ↦ ?_⟩
    obtain ⟨_, symbol, _, _, _, _, herror⟩ := exists_of_not_nodup hrepeated
    exact ⟨.repeatedInSeed symbol, herror, rfl⟩
  · obtain ⟨before, symbol, after, hsplit, hbefore, hmem, herror⟩ :=
      exists_of_not_nodup (not_nodup_of_seed_eq_error he)
    exact ⟨before, symbol, after, hsplit, hbefore, hmem, Except.error.inj (he.symm.trans herror)⟩
  · have hnodup := List.nodup_iff_count_le_one.2 hcount
    obtain ⟨_, r, _, _, hr, hholds⟩ := exists_of_nodup hnodup
    exact ⟨⟨r, hr, hholds⟩, fun before unit after ↦ exists_before_linear hnodup,
      fun before unit after ↦ exists_before_nonlinear hnodup⟩
  · have hperm := (allSymbols_perm hlinear hnonlinear).nodup_iff
    refine ⟨seed_isOk_iff.trans (hperm.trans seed_isOk_iff.symm), fun r r' hr hr' ↦ ?_⟩
    exact (holds_of_seed hr).lookup_eq_of_perm (holds_of_seed hr') hlinear hnonlinear

end Registry

end Metrology
