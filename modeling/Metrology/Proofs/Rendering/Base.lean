import Mathlib.Data.List.Nodup
import Metrology.Proofs.Registry.Valid
import Metrology.Rendering.Quantity

/-!
# The unit under a prefix

An SI prefix is put before a symbol that has none, so a prefix that a symbol has is taken off first.
What stays is the symbol itself, or the registered unit of which the symbol is the multiple that its
first character says (`siBaseUnit_outcome`).

Every prefix is a single character and no two prefixes are the same one
(`length_of_mem_symbolPrefixes`, `nodup_symbolPrefixes`). So a symbol is cut in one way at most, and
the order of the table decides nothing.

A quantity is shown in the unit that is asked for, or in the unit under its prefix if the style puts
a prefix of its own there (`shownUnit`).
-/

namespace Metrology

namespace Rendering

open Text

/-- A symbol is a prefix before another symbol. Both have multipliers, which differ by the power of
ten of the prefix. -/
def IsPrefixed (r : Registry) (symbol base : RawText) : Prop :=
  ∃ entry ∈ symbolPrefixes, symbol = entry.2 ++ base ∧
    ∃ m b, r.linear? symbol = some m ∧ r.linear? base = some b ∧ differByPower m b entry.1 = true

/-! ### The table -/

theorem length_of_mem_symbolPrefixes :
    ∀ entry ∈ symbolPrefixes, (RawText.ofString entry.2).points.length = 1 := by
  decide

theorem nodup_symbolPrefixes :
    (symbolPrefixes.map fun entry ↦ (RawText.ofString entry.2).points).Nodup := by
  decide

/-- A symbol begins with one prefix at most. -/
theorem eq_of_prefix_append_eq {entry entry' : Int × String} (h : entry ∈ symbolPrefixes)
    (h' : entry' ∈ symbolPrefixes) {base base' : RawText}
    (heq : entry.2 ++ base = entry'.2 ++ base') : entry = entry' ∧ base = base' := by
  obtain ⟨hsign, hbase⟩ := List.append_inj (congrArg RawText.points heq)
    ((length_of_mem_symbolPrefixes _ h).trans (length_of_mem_symbolPrefixes _ h').symm)
  exact ⟨List.inj_on_of_nodup_map nodup_symbolPrefixes h h' hsign,
    RawText.points_injective hbase⟩

/-! ### Taking a prefix off -/

variable {r : Registry} {unit base : RawText} {multiplier : Scalar} {entry : Int × String}

theorem unprefixed?_eq_some_iff : unprefixed? r unit multiplier entry = some base ↔
    unit = entry.2 ++ base ∧ base ≠ "" ∧
      ∃ b, r.linear? base = some b ∧ differByPower multiplier b entry.1 = true := by
  constructor
  · intro h
    obtain ⟨rest, hafter, h⟩ := Option.bind_eq_some_iff.1 h
    obtain ⟨b, hb, h⟩ := Option.bind_eq_some_iff.1 h
    split at h
    · next hsome =>
      obtain rfl := Option.some_inj.1 h
      rw [Bool.and_eq_true] at hsome
      refine ⟨RawText.points_injective (after?_eq_some_iff.1 hafter), fun hempty ↦ ?_, b, hb,
        hsome.2⟩
      obtain rfl : rest = [] := congrArg RawText.points hempty
      exact absurd hsome.1 (by simp)
    · exact absurd h (by simp)
  · rintro ⟨rfl, hne, b, hb, hpower⟩
    refine Option.bind_eq_some_iff.2 ⟨base.points, after?_eq_some_iff.2 rfl, ?_⟩
    have hrest : (!base.points.isEmpty) = true := by
      rw [Bool.not_eq_true', ← RawText.isEmpty]
      exact RawText.isEmpty_eq_false_iff.2 hne
    show (r.linear? base >>= _) = _
    rw [hb]
    show (if _ then _ else _) = _
    rw [hrest, hpower]
    rfl

/-- In whatever order the prefixes are tried, the base that is found is the one there is. -/
theorem findSome?_unprefixed?_eq_some_iff {table : List (Int × String)}
    (htable : table.Perm symbolPrefixes) (hm : r.linear? unit = some multiplier) :
    table.findSome? (unprefixed? r unit multiplier) = some base ↔
      base ≠ "" ∧ IsPrefixed r unit base := by
  constructor
  · intro h
    obtain ⟨entry, hentry, hrest⟩ := List.exists_of_findSome?_eq_some h
    obtain ⟨hsplit, hne, b, hb, hpower⟩ := unprefixed?_eq_some_iff.1 hrest
    exact ⟨hne, entry, htable.mem_iff.1 hentry, hsplit, multiplier, b, hm, hb, hpower⟩
  · rintro ⟨hne, entry, hentry, hsplit, m, b, hm', hb, hpower⟩
    obtain rfl := Option.some_inj.1 (hm'.symm.trans hm)
    have hsome := unprefixed?_eq_some_iff.2 ⟨hsplit, hne, b, hb, hpower⟩
    rcases hfound : table.findSome? (unprefixed? r unit m) with _ | base'
    · have hnone := List.findSome?_eq_none_iff.1 hfound entry (htable.mem_iff.2 hentry)
      exact absurd (hnone.symm.trans hsome) (by simp)
    · obtain ⟨entry', hentry', hrest⟩ := List.exists_of_findSome?_eq_some hfound
      obtain ⟨hsplit', -⟩ := unprefixed?_eq_some_iff.1 hrest
      rw [(eq_of_prefix_append_eq hentry (htable.mem_iff.1 hentry') (hsplit.symm.trans hsplit')).2]

/-! ### The unit that a prefix is put before -/

/-- A symbol is refused if it looks compound or is nonlinear. -/
theorem siBaseUnit_eq_error_iff (hunit : unit ≠ "") : (∃ e, siBaseUnit r unit = .error e) ↔
    (∃ c ∈ compoundMarks, c ∈ unit.points) ∨ (r.nonlinear? unit).isSome = true := by
  have hmarks : (∃ c ∈ compoundMarks, c ∈ unit.points) ↔
      unit.points.any (· ∈ compoundMarks) = true := by
    simp only [List.any_eq_true, decide_eq_true_eq, and_comm]
  rw [siBaseUnit, if_neg (by simp [RawText.isEmpty_eq_false_iff.2 hunit]), hmarks]
  split
  · next h => exact ⟨fun _ ↦ Or.inl h, fun _ ↦ ⟨_, rfl⟩⟩
  · next h =>
    split
    · next hnonlinear => exact ⟨fun _ ↦ Or.inr hnonlinear, fun _ ↦ ⟨_, rfl⟩⟩
    · next hnonlinear =>
      refine ⟨fun herror ↦ ?_, fun hrefused ↦ (hrefused.elim h hnonlinear).elim⟩
      split at herror <;> exact absurd herror (by simp)

/-- A symbol that is not refused is searched for a prefix. -/
theorem siBaseUnit_of_not_refused (hunit : unit ≠ "")
    (h : ¬∃ e, siBaseUnit r unit = .error e) : siBaseUnit r unit =
      .ok (((r.linear? unit).bind fun m ↦
        symbolPrefixes.findSome? (unprefixed? r unit m)).getD unit) := by
  rw [siBaseUnit_eq_error_iff hunit, not_or] at h
  obtain ⟨hmarks, hnonlinear⟩ := h
  have hany : ¬unit.points.any (· ∈ compoundMarks) = true := by
    simpa [and_comm] using hmarks
  rw [siBaseUnit, if_neg (by simp [RawText.isEmpty_eq_false_iff.2 hunit]), if_neg hany,
    if_neg (show ¬r.nonlinear.contains unit = true from hnonlinear)]
  rcases r.linear? unit with _ | m <;> rfl

/-- A symbol that is accepted stays, or loses the one prefix it has. -/
theorem siBaseUnit_eq_ok_iff (hunit : unit ≠ "") (h : ¬∃ e, siBaseUnit r unit = .error e) :
    siBaseUnit r unit = .ok base ↔
      (base ≠ "" ∧ IsPrefixed r unit base) ∨
        base = unit ∧ ∀ other : RawText, other ≠ "" → ¬IsPrefixed r unit other := by
  rw [siBaseUnit_of_not_refused hunit h, Except.ok.injEq]
  rcases hm : r.linear? unit with _ | m
  · have hnever : ∀ other, ¬IsPrefixed r unit other := by
      rintro other ⟨entry, -, -, m, b, hm', -⟩
      exact absurd (hm'.symm.trans hm) (by simp)
    simp [hnever, eq_comm]
  · have hiff : ∀ other, symbolPrefixes.findSome? (unprefixed? r unit m) = some other ↔
        other ≠ "" ∧ IsPrefixed r unit other :=
      fun other ↦ findSome?_unprefixed?_eq_some_iff (List.Perm.refl _) hm
    rw [Option.bind_some]
    rcases hfound : symbolPrefixes.findSome? (unprefixed? r unit m) with _ | found
    · have hnever : ∀ other : RawText, other ≠ "" → ¬IsPrefixed r unit other :=
        fun other hne hother ↦
          absurd (hfound.symm.trans ((hiff other).2 ⟨hne, hother⟩)) (by simp)
      rw [Option.getD_none]
      exact ⟨fun heq ↦ Or.inr ⟨heq.symm, hnever⟩, fun hcases ↦ hcases.elim
        (fun hother ↦ absurd hother.2 (hnever _ hother.1)) fun hsame ↦ hsame.1.symm⟩
    · have hprefixed := (hiff found).1 hfound
      rw [Option.getD_some]
      exact ⟨fun heq ↦ Or.inl (heq ▸ hprefixed), fun hcases ↦ hcases.elim
        (fun hother ↦ Option.some_inj.1 (hfound.symm.trans ((hiff base).2 hother)))
        fun hsame ↦ absurd hprefixed.2 (hsame.2 _ hprefixed.1)⟩

/-- The unit itself is given, or what a prefix stands before in it. -/
theorem eq_or_isPrefixed_of_siBaseUnit (h : siBaseUnit r unit = .ok base) :
    base = unit ∨ IsPrefixed r unit base := by
  by_cases hunit : unit = ""
  · subst hunit
    exact Or.inl (Except.ok.inj h).symm
  · have haccepted : ¬∃ e, siBaseUnit r unit = .error e := by
      rintro ⟨e, herror⟩
      exact absurd (h.symm.trans herror) (by simp)
    exact ((siBaseUnit_eq_ok_iff hunit haccepted).1 h).symm.imp And.left And.right

/-- The unit that is refused is told. -/
theorem subject_of_siBaseUnit {cause : RenderingError} (h : siBaseUnit r unit = .error cause) :
    cause.subject = unit := by
  rw [siBaseUnit] at h
  split at h
  · exact absurd h (by simp)
  · split at h
    · exact Except.error.inj h ▸ rfl
    · split at h
      · exact Except.error.inj h ▸ rfl
      · split at h <;> exact absurd h (by simp)

/-- **The unit that an SI prefix is put before.** A symbol is refused exactly if it has a mark of
compound units or is nonlinear. Otherwise the unit is the symbol itself or what a prefix stands
before; if a prefix stands before any unit, it is that one, whatever the order in which the
prefixes are tried. A registered symbol has a registered unit. -/
theorem siBaseUnit_outcome (r : Registry) {unit : RawText} (hunit : unit ≠ "") :
    ((∃ e, siBaseUnit r unit = .error e ∧ (Failure.rendering e).className = "FormattingError") ↔
      (∃ c ∈ ([' ', '/', '^', '(', ')'] : List CodePoint), c ∈ unit.points) ∨
        (r.nonlinear? unit).isSome = true) ∧
    ∀ base, siBaseUnit r unit = .ok base →
      (base = unit ∨ base ≠ "" ∧ IsPrefixed r unit base) ∧
      (∀ other : RawText, other ≠ "" → IsPrefixed r unit other → other = base) ∧
      (∀ table : List (Int × String), table.Perm symbolPrefixes → ∀ m, r.linear? unit = some m →
        (table.findSome? (unprefixed? r unit m)).getD unit = base) ∧
      (r.contains unit = true → r.contains base = true) := by
  refine ⟨?_, fun base hok ↦ ?_⟩
  · rw [show ([' ', '/', '^', '(', ')'] : List CodePoint) = compoundMarks from rfl,
      ← siBaseUnit_eq_error_iff hunit]
    exact exists_congr fun e ↦ and_iff_left rfl
  have haccepted : ¬∃ e, siBaseUnit r unit = .error e := by
    rintro ⟨e, herror⟩
    exact absurd (hok.symm.trans herror) (by simp)
  have hbase := (siBaseUnit_eq_ok_iff hunit haccepted).1 hok
  have hunique : ∀ other : RawText, other ≠ "" → IsPrefixed r unit other → other = base :=
    fun other hne hother ↦ Except.ok.inj
      (((siBaseUnit_eq_ok_iff hunit haccepted).2 (Or.inl ⟨hne, hother⟩)).symm.trans hok)
  refine ⟨hbase.symm.imp_left And.left, hunique, fun table htable m hm ↦ ?_, fun hcontains ↦ ?_⟩
  · rcases hfound : table.findSome? (unprefixed? r unit m) with _ | found
    · rcases hbase with hprefixed | ⟨rfl, -⟩
      · have hsome := (findSome?_unprefixed?_eq_some_iff htable hm).2 hprefixed
        exact absurd (hfound.symm.trans hsome) (by simp)
      · rfl
    · obtain ⟨hne, hprefixed⟩ := (findSome?_unprefixed?_eq_some_iff htable hm).1 hfound
      exact hunique found hne hprefixed
  · rcases hbase with ⟨-, -, -, -, -, b, -, hb, -⟩ | ⟨rfl, -⟩
    · rw [Registry.contains, SymbolMap.contains, show r.linear.get? base = some b from hb]
      rfl
    · exact hcontains

/-- A kilometre is a thousand metres. -/
theorem siBaseUnit_kilometre : siBaseUnit Registry.builtIn "km" = .ok "m" ∧
    IsPrefixed Registry.builtIn "km" "m" := by
  have hok : siBaseUnit Registry.builtIn "km" = .ok "m" := by decide +kernel
  refine ⟨hok, ?_⟩
  have hne : RawText.ofString "km" ≠ "" := by decide
  rcases ((siBaseUnit_outcome Registry.builtIn hne).2 "m" hok).1 with
    hsame | ⟨-, hprefixed⟩
  · exact absurd hsame (by decide)
  · exact hprefixed

/-- Where the empty symbol is registered too, nothing may stand after a prefix; it is not taken for
a unit. -/
theorem siBaseUnit_empty_base : ∃ r₁ r, (∅ : Registry).insertLinear "" 1 = .ok r₁ ∧
    r₁.insertLinear "k" 1000 = .ok r ∧ IsPrefixed r "k" "" ∧ siBaseUnit r "k" = .ok "k" := by
  refine ⟨_, _, Registry.insertLinear_eq_ok_iff.2 ⟨by decide +kernel, rfl, rfl⟩,
    Registry.insertLinear_eq_ok_iff.2 ⟨by decide +kernel, rfl, rfl⟩, ?_, by decide +kernel⟩
  exact ⟨(3, "k"), by decide, by decide, .double 1000, .double 1, rfl, rfl, by decide +kernel⟩

/-! ### The unit of a quantity -/

/-- The unit that a quantity is shown in. -/
def shownUnit (r : Registry) (style : Style) (unit : RawText) : Except RenderingError RawText :=
  if style = .si then siBaseUnit r unit else .ok unit

theorem eq_or_isPrefixed_of_shownUnit {style : Style} (h : shownUnit r style unit = .ok base) :
    base = unit ∨ IsPrefixed r unit base := by
  rw [shownUnit] at h
  split at h
  · exact eq_or_isPrefixed_of_siBaseUnit h
  · exact Or.inl (Except.ok.inj h).symm

theorem subject_of_shownUnit {style : Style} {cause : RenderingError}
    (h : shownUnit r style unit = .error cause) : cause.subject = unit := by
  rw [shownUnit] at h
  split at h
  · exact subject_of_siBaseUnit h
  · exact absurd h (by simp)

end Rendering

end Metrology
