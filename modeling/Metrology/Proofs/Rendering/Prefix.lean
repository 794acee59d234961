import Metrology.Proofs.Converter.Doubles
import Metrology.Proofs.Converter.Modes
import Metrology.Proofs.Rendering.Base
import Metrology.Proofs.Rendering.Reading

/-!
# Prefixed symbols and registered symbols

A quantity with an SI prefix ends in the prefix and a unit symbol, and the two together may be a
symbol themselves, such as `km`. Over the built-in units, and whatever has been memoized besides,
that symbol stands for the same multiple of the unit (`quantity_si_suffix`), with one exception: a
peta-year is shown as `Pa`, which is a pascal.

Nothing checks this when a quantity is rendered, so it rests on the table. What the table has to
satisfy is a property of the pairs of its symbols and the prefixes (`checked_builtIn`). Other texts
without marks of compound units are literals, and no literal begins with a prefix
(`read?_prefixed`).
-/

namespace Metrology

open Text

/-- One multiplier is another one times a power of ten, but for a part in a thousand million. -/
def Scalar.IsPowerTimes : Scalar → Scalar → Int → Prop
  | .double m, .double b, exponent =>
    |m.toRat - b.toRat * 10 ^ exponent| ≤ |b.toRat * 10 ^ exponent| / 10 ^ 9
  | _, _, _ => False

instance : (m b : Scalar) → (exponent : Int) → Decidable (m.IsPowerTimes b exponent)
  | .double m, .double b, exponent => inferInstanceAs (Decidable
      (|m.toRat - b.toRat * 10 ^ exponent| ≤ |b.toRat * 10 ^ exponent| / 10 ^ 9))
  | .int _, _, _ => isFalse id
  | .double _, .int _, _ => isFalse id

namespace Registry

/-- The symbol that is both a prefixed year and a pascal. -/
def IsPetaYear (sign : String) (base : RawText) : Prop := sign = "P" ∧ base = "a"

instance (sign : String) (base : RawText) : Decidable (IsPetaYear sign base) :=
  inferInstanceAs (Decidable (_ ∧ _))

/-- What follows a prefix in a symbol is nothing, or no unit, or the unit of which the symbol is the
multiple, but for one symbol. -/
def Agrees (r : Registry) (symbol : RawText) (m : Scalar) (entry : Int × String) : Prop :=
  ∀ rest ∈ after? (RawText.ofString entry.2).points symbol.points, rest = [] ∨
    IsPetaYear entry.2 ⟨rest⟩ ∨
      (r.linear? ⟨rest⟩).isNone = true ∧ (Expression.literal? rest).isNone = true ∨
        ∃ b ∈ r.linear? ⟨rest⟩, m.IsPowerTimes b entry.1

instance (r : Registry) (symbol : RawText) (m : Scalar) (entry : Int × String) :
    Decidable (r.Agrees symbol m entry) := by
  unfold Agrees
  infer_instance

/-! ### The table -/

/-- What the symbols of the table are checked for: the linear ones have doubles and agree with every
prefix, and no nonlinear one begins with a prefix. -/
theorem checked_builtIn : (∀ symbol ∈ builtIn.linear.entries,
      symbol.2.toDouble.toOption.map .double = some symbol.2 ∧
        ∀ entry ∈ Rendering.symbolPrefixes, builtIn.Agrees symbol.1 symbol.2 entry) ∧
    ∀ symbol ∈ builtIn.nonlinear.entries, ∀ entry ∈ Rendering.symbolPrefixes,
      (after? (RawText.ofString entry.2).points symbol.1.points).isNone = true := by
  decide +kernel

/-- A prefix begins like no literal, and has no mark of compound units. -/
theorem checked_symbolPrefixes : ∀ entry ∈ Rendering.symbolPrefixes,
    (entry.2.toList.head?.any fun c ↦ !isDigit c && c ∉ ['-', '+', '.']) = true ∧
      (entry.2.toList.all fun c ↦ .char c ∉ Rendering.compoundMarks) = true := by
  decide

/-- All prefixes are prefixes of symbols, but for the one that is nothing. -/
theorem siPrefixOf_mem : ∀ exponent ∈ Rendering.siPrefixes.map Prod.fst, ∀ unicode,
    exponent = 0 ∧ Rendering.siPrefixOf exponent unicode = "" ∨
      (exponent, Rendering.siPrefixOf exponent unicode) ∈ Rendering.symbolPrefixes := by
  decide

theorem mem_entries_of_get? {α : Type} {m : SymbolMap α} {symbol : RawText} {value : α}
    (h : m.get? symbol = some value) : (symbol, value) ∈ m.entries := by
  obtain ⟨entry, hentry, rfl⟩ := Option.map_eq_some_iff.1 h
  have hsymbol : entry.1 = symbol := by simpa using List.find?_some hentry
  exact hsymbol ▸ List.mem_of_find?_eq_some hentry

theorem onlyDoubles_builtIn : builtIn.OnlyDoubles := by
  intro symbol multiplier h
  obtain ⟨x, -, hx⟩ := Option.map_eq_some_iff.1
    (checked_builtIn.1 _ (mem_entries_of_get? h)).1
  exact ⟨x, hx.symm⟩

/-! ### Symbols that are not registered -/

/-- A literal begins with a digit, a sign or the point. -/
theorem read?_eq_none {c : Char} (hdigit : isDigit c = false) (hminus : c ≠ '-') (hplus : c ≠ '+')
    (hpoint : c ≠ '.') (rest : List Char) : Literal.read? (c :: rest) = none := by
  have hsign : splitSign (c :: rest) = (false, c :: rest) :=
    splitSign.eq_3 _ (fun _ h ↦ hminus (List.cons.inj h).1) (fun _ h ↦ hplus (List.cons.inj h).1)
  have hspan : (c :: rest).span isDigit = ([], c :: rest) := by
    rw [List.span_eq_takeWhile_dropWhile, List.takeWhile_cons_of_neg (by simp [hdigit]),
      List.dropWhile_cons_of_neg (by simp [hdigit])]
  have hfraction : Literal.splitFraction (c :: rest) = ([], c :: rest) :=
    Literal.splitFraction.eq_2 _ fun _ h ↦ hpoint (List.cons.inj h).1
  simp only [Literal.read?, hsign, hspan, hfraction]
  rfl

variable {r : Registry} {symbol base : RawText} {sign : String} {m b : Scalar}

/-- The multiplier of a symbol without marks of compound units is registered, or a literal. -/
theorem multiplierOf_eq_ok (hmarks : ∀ c ∈ symbol.points, c ∉ Rendering.compoundMarks)
    (h : r.multiplierOf (some symbol) = .ok m) : r.linear? symbol = some m ∨
      r.linear? symbol = none ∧ (Expression.literal? symbol.points).isSome = true := by
  rcases hlinear : r.linear? symbol with _ | multiplier
  · rw [multiplierOf_some_of_linear?_eq_none hlinear] at h
    have hoperand := operand_of_evaluate_eq_ok
      (Rendering.isLeaf_of_notMem_compoundMarks hmarks) h
    rcases leaf_eq_ok (leaf_of_operand_eq_ok hoperand) with hsome | ⟨-, literal, hread, -⟩
    · rw [hlinear] at hsome
      exact absurd hsome (by simp)
    · exact Or.inr ⟨rfl, by rw [hread]; rfl⟩
  · rw [multiplierOf_some_of_linear? hlinear] at h
    exact Or.inl (congrArg some (Except.ok.inj h))

theorem read?_prefixed {exponent : Int} (hentry : (exponent, sign) ∈ Rendering.symbolPrefixes)
    (base : RawText) : Expression.literal? (sign ++ base).points = none := by
  obtain ⟨c, hc, hhead⟩ := (Option.any_eq_true ..).1 (checked_symbolPrefixes _ hentry).1
  obtain ⟨hdigit, hminus, hplus, hpoint⟩ : isDigit c = false ∧ c ≠ '-' ∧ c ≠ '+' ∧ c ≠ '.' := by
    simpa using hhead
  obtain ⟨rest, hrest⟩ := List.head?_eq_some_iff.1 hc
  refine Option.bind_eq_none_iff.2 fun cs hcs ↦ ?_
  rw [RawText.points_append, RawText.ofString, hrest, List.map_cons, List.cons_append,
    RawText.chars?] at hcs
  obtain ⟨tail, -, rfl⟩ := Option.map_eq_some_iff.1 hcs
  exact read?_eq_none hdigit hminus hplus hpoint tail

/-! ### What a prefix and a symbol stand for -/

/-- A built-in symbol that begins with a prefix is that multiple of the unit after the prefix. -/
theorem isPowerTimes_builtIn {exponent : Int} (hentry : (exponent, sign) ∈ Rendering.symbolPrefixes)
    (hbase : base ≠ "") (hmarks : ∀ c ∈ base.points, c ∉ Rendering.compoundMarks)
    (hm : builtIn.linear? (sign ++ base) = some m)
    (hb : builtIn.multiplierOf (some base) = .ok b) :
    IsPetaYear sign base ∨ m.IsPowerTimes b exponent := by
  have hagrees := (checked_builtIn.1 _ (mem_entries_of_get? hm)).2 _ hentry base.points
    (after?_eq_some_iff.2 rfl)
  rcases hagrees with hempty | hyear | ⟨hfree, hread⟩ | ⟨b', hlinear, hpower⟩
  · exact absurd (RawText.points_injective hempty) hbase
  · exact Or.inl hyear
  · rcases multiplierOf_eq_ok hmarks hb with hsome | ⟨-, hsome⟩
    · rw [hsome] at hfree
      exact absurd hfree (by simp)
    · rw [Option.isNone_iff_eq_none.1 hread] at hsome
      exact absurd hsome (by simp)
  · have hsame := (multiplierOf_some_of_linear? hlinear).symm.trans hb
    exact Or.inr (Except.ok.inj hsame ▸ hpower)

/-- Nothing that begins with a prefix is memoized, apart from compound expressions. -/
theorem linear?_prefixed (h : Extends builtIn r) {exponent : Int}
    (hentry : (exponent, sign) ∈ Rendering.symbolPrefixes)
    (hmarks : ∀ c ∈ (sign ++ base).points, c ∉ Rendering.compoundMarks)
    (hm : r.linear? (sign ++ base) = some m) : builtIn.linear? (sign ++ base) = some m := by
  have hvalue := multiplierOf_eq_of_onlyDoubles h onlyDoubles_builtIn (some (sign ++ base))
  rw [multiplierOf_some_of_linear? hm] at hvalue
  rcases multiplierOf_eq_ok hmarks hvalue.symm with hsome | ⟨-, hsome⟩
  · exact hsome
  · rw [read?_prefixed hentry] at hsome
    exact absurd hsome (by simp)

theorem notMem_compoundMarks_of_mem {exponent : Int}
    (hentry : (exponent, sign) ∈ Rendering.symbolPrefixes) :
    ∀ c ∈ (RawText.ofString sign).points, c ∉ Rendering.compoundMarks := by
  refine List.forall_mem_map.2 ?_
  simpa using (checked_symbolPrefixes _ hentry).2

theorem isPowerTimes_zero (x : Double) : (Scalar.double x).IsPowerTimes (.double x) 0 := by
  rw [Scalar.IsPowerTimes, zpow_zero, mul_one, sub_self, abs_zero]
  positivity

/-- A registered symbol that is a prefix and a unit is that multiple of the unit, unless it is the
peta-year. -/
theorem isPowerTimes_of_contains (h : Extends builtIn r) (hbase : base ≠ "")
    (hmarks : ∀ c ∈ base.points, c ∉ Rendering.compoundMarks)
    (hnonlinear : r.nonlinear? base = none) (hb : r.multiplierOf (some base) = .ok b)
    {exponent : Int} (hexponent : exponent ∈ Rendering.siPrefixes.map Prod.fst) {unicode : Bool}
    (hcontains : r.contains (Rendering.siPrefixOf exponent unicode ++ base) = true) :
    IsPetaYear (Rendering.siPrefixOf exponent unicode) base ∨
      ∃ m, r.linear? (Rendering.siPrefixOf exponent unicode ++ base) = some m ∧
        m.IsPowerTimes b exponent := by
  have hb' : builtIn.multiplierOf (some base) = .ok b :=
    (multiplierOf_eq_of_onlyDoubles h onlyDoubles_builtIn _).symm.trans hb
  rw [contains, Bool.or_eq_true] at hcontains
  rcases siPrefixOf_mem exponent hexponent unicode with ⟨rfl, hnothing⟩ | hentry
  · -- without a prefix the symbol is the unit itself
    rw [hnothing, show RawText.ofString "" ++ base = base from rfl] at hcontains ⊢
    rcases hcontains with hlinear | hother
    · obtain ⟨m, hm⟩ := Option.isSome_iff_exists.1 hlinear
      have hsame := (multiplierOf_some_of_linear? (r := r) hm).symm.trans hb
      obtain ⟨x, rfl⟩ := isDouble_of_multiplierOf_eq_ok onlyDoubles_builtIn hb'
      exact Or.inr ⟨m, hm, Except.ok.inj hsame ▸ isPowerTimes_zero x⟩
    · rw [nonlinear?] at hnonlinear
      rw [SymbolMap.contains, hnonlinear] at hother
      exact absurd hother (by simp)
  · rcases hcontains with hlinear | hother
    · obtain ⟨m, hm⟩ := Option.isSome_iff_exists.1 hlinear
      have hall : ∀ c ∈ (Rendering.siPrefixOf exponent unicode ++ base).points,
          c ∉ Rendering.compoundMarks :=
         List.forall_mem_append.2
          ⟨notMem_compoundMarks_of_mem hentry, hmarks⟩
      have htable := linear?_prefixed h hentry hall hm
      rcases isPowerTimes_builtIn hentry hbase hmarks htable hb' with hyear | hpower
      · exact Or.inl hyear
      · exact Or.inr ⟨m, hm, hpower⟩
    · obtain ⟨unit, hunit⟩ := Option.isSome_iff_exists.1 hother
      rw [h.nonlinear_eq] at hunit
      have hnone := checked_builtIn.2 _ (mem_entries_of_get? hunit) _ hentry
      rw [after?_eq_some_iff.2 (RawText.points_append _ _)] at hnone
      exact absurd hnone (by simp)

end Registry

namespace Rendering

open Registry

/-! ### The unit before which a prefix is put -/

/-- A prefix is put before a symbol that is neither compound nor nonlinear. -/
theorem siBaseUnit_eq_ok {r : Registry} (hvalid : r.Valid) {unit base : RawText} (hunit : unit ≠ "")
    (h : siBaseUnit r unit = .ok base) : base ≠ "" ∧ (∀ c ∈ base.points, c ∉ compoundMarks) ∧
      r.nonlinear? base = none := by
  have haccepted : ¬∃ e, siBaseUnit r unit = .error e := by
    rintro ⟨e, herror⟩
    exact absurd (h.symm.trans herror) (by simp)
  have hbase := (siBaseUnit_eq_ok_iff hunit haccepted).1 h
  rw [siBaseUnit_eq_error_iff hunit, not_or] at haccepted
  obtain ⟨hmarks, hnonlinear⟩ := haccepted
  have hmarks' : ∀ c ∈ unit.points, c ∉ compoundMarks := fun c hc hmark ↦ hmarks ⟨c, hmark, hc⟩
  rcases hbase with ⟨hne, entry, -, hsplit, -, b, -, hb, -⟩ | ⟨rfl, -⟩
  · refine ⟨hne, fun c hc ↦ hmarks' c ?_, (hvalid.disjoint _).resolve_left ?_⟩
    · rw [hsplit, RawText.points_append]
      exact List.mem_append_right _ hc
    · rw [hb]
      simp
  · exact ⟨hunit, hmarks', Option.not_isSome_iff_eq_none.1 hnonlinear⟩

/-! ### The prefix -/

/-- The exponent of the prefix that a number is shown with. -/
def shownExponent (x : Double) (digits : Int) : Except Failure Int := do
  let rounded ← roundSignificant (.double x) digits
  let exponent ← arithmetic rounded.decimalExponent
  .ok (siExponent exponent)

/-- There is a prefix for every number. -/
theorem siExponent_mem (exponent : Int) : siExponent exponent ∈ siPrefixes.map Prod.fst := by
  have hall : ∀ k : Fin 17, 3 * ((k.val : Int) - 8) ∈ siPrefixes.map Prod.fst := by decide
  obtain ⟨k, hk⟩ : ∃ k : Fin 17, siExponent exponent = 3 * ((k.val : Int) - 8) := by
    refine ⟨⟨(siExponent exponent / 3 + 8).toNat, ?_⟩, ?_⟩ <;>
      simp only [siExponent, thousandsExponent, Int.fdiv_eq_ediv_of_nonneg _ (show (0 : Int) ≤ 3 by
        decide)] <;> omega
  exact hk ▸ hall k

theorem isFinite_of_roundSignificant {x rounded : Double} {digits : Int} (hx : x.isFinite = true)
    (h : roundSignificant (.double x) digits = .ok rounded) : rounded.isFinite = true := by
  rw [roundSignificant] at h
  split at h
  · exact absurd h (by simp)
  · have hround : roundDouble x digits = .ok rounded := ok_of_mapError_eq_ok h
    rw [roundDouble] at hround
    split at hround
    · exact Except.ok.inj hround ▸ hx
    · obtain ⟨exponent, -, hplaces⟩ := exists_of_bind_eq_ok hround
      exact Double.isFinite_roundPlaces hx hplaces

/-- The text of a plain number has no space. -/
theorem space_notMem_plain {x : Scalar} {digits : Int} {t : String}
    (h : plain x digits = .ok t) : ' ' ∉ t.toList := by
  obtain ⟨rounded, -, h⟩ := exists_of_bind_eq_ok h
  rcases exists_numeral_of_plainRounded (ok_of_mapError_eq_ok h) with hname | ⟨d, hd⟩
  · exact (by decide : ∀ name ∈ nonfiniteTexts, ' ' ∉ name.toList) t hname
  · rw [hd]
    exact fun hspace ↦ d.notMem_compoundMarks hspace (by decide)

/-- A finite number with an SI prefix is a text without spaces, a space, the prefix and the unit. -/
theorem exists_of_si_eq_ok {x : Double} (hx : x.isFinite = true) {unit : RawText}
    (hunit : unit ≠ "")
    {digits : Int} {unicode : Bool} {t : RawText} (h : si (.double x) unit digits unicode = .ok t) :
    ∃ (exponent : Int) (numeral : String), shownExponent x digits = .ok exponent ∧
      ' ' ∉ numeral.toList ∧
      t = numeral ++ " " ++ (siPrefixOf exponent unicode ++ unit) := by
  obtain ⟨rounded, hrounded, h⟩ := exists_of_bind_eq_ok h
  rw [if_neg (by simp [isFinite_of_roundSignificant hx hrounded])] at h
  obtain ⟨exponent, hexponent, h⟩ := exists_of_bind_eq_ok h
  obtain ⟨mantissa, -, h⟩ := exists_of_bind_eq_ok h
  obtain ⟨numeral, hnumeral, h⟩ := exists_of_bind_eq_ok h
  refine ⟨siExponent exponent, numeral, ?_, space_notMem_plain hnumeral, ?_⟩
  · rw [shownExponent, hrounded]
    show (arithmetic rounded.decimalExponent >>= _) = _
    rw [hexponent]
    rfl
  · have hsuffix : (siPrefixOf (siExponent exponent) unicode ++ unit).isEmpty = false :=
      RawText.isEmpty_append_of_right _ hunit
    dsimp only at h
    rw [hsuffix] at h
    exact (Except.ok.inj h).symm

end Rendering

/-! ### The unit of a finite number -/

namespace Converter

/-- Where resolving succeeds, it gives the multiplier of the unit. -/
theorem multiplierOf_of_resolve {c : Converter} {p : Preferences} {unit : Option RawText}
    {multiplier : Scalar} (h : (c.resolve p unit).1 = .ok multiplier) :
    c.registry.multiplierOf unit = .ok multiplier := by
  rcases hresult : c.resolve p unit with ⟨answer, after⟩
  have hresolution := hresult ▸ resolution c p unit
  rw [hresult] at h
  cases hresolution with
  | registered hlinear => rw [Registry.multiplierOf_some_of_linear? hlinear, ← h]
  | parsed hlinear _ hvalue _ | memoized hlinear _ hvalue _ _ =>
    rw [Registry.multiplierOf_some_of_linear?_eq_none hlinear, hvalue, ← h]
  | unknown | failed | refused => exact absurd h (by simp)

end Converter

namespace Rendering

open Registry

/-- What stands for not-a-number is no finite number. -/
theorem isFinite_of_doubleOf_nanLike {value : Value} {x : Double}
    (h : doubleOf value.nanLike = .ok x) : x.isFinite = false := by
  have hsingle : ∀ s, value.nanLike.single? = some s → s = .double .nan := by
    intro s hs
    cases value with
    | number | cell => exact (Option.some_inj.1 hs).symm
    | array grid =>
      rw [Value.nanLike, Value.single?, Grid.cells_map] at hs
      split at hs
      · next y hcells =>
        obtain ⟨z, -, hz⟩ := List.map_eq_singleton_iff.1 hcells
        rw [← hz] at hs
        exact (Option.some_inj.1 hs).symm
      · exact absurd hs (by simp)
  rw [doubleOf] at h
  split at h
  · next s hs =>
    rw [hsingle s hs] at h
    exact Except.ok.inj h ▸ rfl
  · exact absurd h (by simp)

/-- A number that comes out finite has a unit with a multiplier. -/
theorem exists_multiplierOf_of_external {c : Converter} {value : Value} {unit : RawText}
    (hunit : unit ≠ "") (hnonlinear : c.registry.nonlinear? unit = none) {x : Double}
    (h : (external c value unit).1 = .ok x) (hx : x.isFinite = true) :
    ∃ b, c.registry.multiplierOf (some unit) = .ok b := by
  rw [external, Converter.fromInternal, Converter.convertBy_linear hunit hnonlinear] at h
  generalize hloud : (c.preferences.override {}).failLoud = loud at h
  rcases hresult : c.resolve (c.preferences.override {}) (some unit) with ⟨e | b, after⟩
  · rw [hresult] at h
    cases e with
    | unit cause =>
      cases loud with
      | true => exact absurd h (by simp [Converter.settle, Converter.refuse])
      | false =>
        have hnan := isFinite_of_doubleOf_nanLike h
        rw [hx] at hnan
        exact absurd hnan (by simp)
    | _ => exact absurd h (by simp [Converter.settle])
  · exact ⟨b, Converter.multiplierOf_of_resolve (p := c.preferences.override {}) (by rw [hresult])⟩

/-! ### Quantities -/

theorem grows_external {c : Converter} (h : Grows builtIn c.registry) (value : Value)
    (unit : RawText) : Grows builtIn (external c value unit).2.registry := by
  have hafter : (external c value unit).2 = (c.fromInternal {} value (some unit)).2 := by
    rw [external]
    split <;> simp_all
  rw [hafter, Converter.fromInternal]
  rcases c.registry_convertBy .fromInternal {} value (some unit) with hsame | ⟨symbol, -, -, hstep⟩
  · rwa [hsame]
  · exact h.tail ⟨symbol, hstep⟩

/-- **The prefix and the unit that a quantity is shown with are no other registered unit.** If the
two together are a symbol, it stands for that multiple of the unit, but for the peta-year. -/
theorem quantity_si_suffix {c after : Converter} (hgrows : Grows builtIn c.registry) {value : Value}
    {unit : RawText} (hunit : unit ≠ "") {digits : Int} {unicode : Bool} {t : RawText}
    (h : quantity c value unit .si digits unicode = (.ok t, after)) :
    ∃ base x, siBaseUnit c.registry unit = .ok base ∧ (external c value base).1 = .ok x ∧
      (x.isFinite = true → ∃ (exponent : Int) (numeral : String) (b : Scalar),
        shownExponent x digits = .ok exponent ∧
        ' ' ∉ numeral.toList ∧ t = numeral ++ " " ++ (siPrefixOf exponent unicode ++ base) ∧
        after.registry.multiplierOf (some base) = .ok b ∧
        (after.registry.contains (siPrefixOf exponent unicode ++ base) = true →
          IsPetaYear (siPrefixOf exponent unicode) base ∨
            ∃ m, after.registry.linear? (siPrefixOf exponent unicode ++ base) = some m ∧
              m.IsPowerTimes b exponent)) := by
  have hvalid : c.registry.Valid := valid_builtIn.grows hgrows
  rw [quantity, if_pos rfl] at h
  rcases hbase : siBaseUnit c.registry unit with e | base
  · rw [hbase] at h
    exact absurd h (by simp)
  · rw [hbase] at h
    obtain ⟨hne, hmarks, hnonlinear⟩ := siBaseUnit_eq_ok hvalid hunit hbase
    have hafter := grows_external hgrows value base
    rcases hexternal : external c value base with ⟨e | x, c'⟩
    · simp only [hexternal] at h
      exact absurd h (by simp)
    · simp only [hexternal, Prod.mk.injEq] at h
      rw [hexternal] at hafter
      obtain ⟨hsi, rfl⟩ := h
      refine ⟨base, x, rfl, by rw [hexternal], fun hx ↦ ?_⟩
      obtain ⟨exponent, numeral, hexponent, hspace, htext⟩ := exists_of_si_eq_ok hx hne hsi
      obtain ⟨b, hb⟩ := exists_multiplierOf_of_external hne hnonlinear
        (by rw [hexternal]) hx
      have hextends := extends_of_grows hafter
      -- memoizing has changed neither the unit nor what kind it is
      have hb' : c'.registry.multiplierOf (some base) = .ok b := by
        rw [multiplierOf_eq_of_onlyDoubles hextends onlyDoubles_builtIn, ← hb,
          multiplierOf_eq_of_onlyDoubles (extends_of_grows hgrows) onlyDoubles_builtIn]
      have hnonlinear' : c'.registry.nonlinear? base = none := by
        rw [nonlinear?, hextends.nonlinear_eq, ← (extends_of_grows hgrows).nonlinear_eq]
        exact hnonlinear
      obtain ⟨e, he⟩ : ∃ e, exponent = siExponent e := by
        obtain ⟨rounded, -, hrest⟩ := exists_of_bind_eq_ok hexponent
        obtain ⟨e, -, hrest⟩ := exists_of_bind_eq_ok hrest
        exact ⟨e, (Except.ok.inj hrest).symm⟩
      exact ⟨exponent, numeral, b, hexponent, hspace, htext, hb', fun hcontains ↦
        isPowerTimes_of_contains hextends hne hmarks hnonlinear' hb' (he ▸ siExponent_mem e)
          hcontains⟩

/-- Fifteen hundred metres are shown in kilometres, and `km` is a thousand metres. -/
theorem quantity_si_kilometres :
    let shown := quantity { registry := builtIn } (.ofDouble 1500) "m" .si 3 true
    (Grows builtIn builtIn ∧ RawText.ofString "m" ≠ "" ∧ shown.1 = .ok "1.5 km") ∧
      ∃ m b, shown.2.registry.linear? "km" = some m ∧
        shown.2.registry.multiplierOf (some "m") = .ok b ∧ m.IsPowerTimes b 3 := by
  obtain ⟨htext, hcontains, hm, hx', hthree⟩ :
      (quantity { registry := builtIn } (.ofDouble 1500) "m" .si 3 true).1 = .ok "1.5 km" ∧
      (quantity { registry := builtIn } (.ofDouble 1500) "m" .si 3
        true).2.registry.contains "km" = true ∧
      siBaseUnit builtIn "m" = .ok "m" ∧
      (external { registry := builtIn } (.ofDouble 1500) "m").1 = .ok 1500 ∧
      (1500 : Double).isFinite = true ∧ shownExponent 1500 3 = .ok 3 := by decide +kernel
  refine ⟨⟨.refl, by decide, htext⟩, ?_⟩
  rcases hshown : quantity { registry := builtIn } (.ofDouble 1500) "m" .si 3 true with
    ⟨answer, after⟩
  rw [hshown] at htext hcontains
  obtain rfl : answer = .ok "1.5 km" := htext
  obtain ⟨base, x, hbase, hx, hfinite⟩ := quantity_si_suffix
    (c := { registry := builtIn }) .refl (by decide) hshown
  obtain rfl : "m" = base := Except.ok.inj (hm.symm.trans hbase)
  obtain rfl : 1500 = x := Except.ok.inj (hx'.symm.trans hx)
  obtain ⟨exponent, numeral, b, hexponent, -, -, hb, hsame⟩ := hfinite hthree.1
  obtain rfl : 3 = exponent := Except.ok.inj (hthree.2.symm.trans hexponent)
  obtain hyear | ⟨m, hm, hpower⟩ := hsame hcontains
  · exact absurd hyear (by decide)
  · exact ⟨m, b, hm, hb, hpower⟩

/-- A peta-year is shown with the symbol of the pascal, which is another unit. -/
theorem quantity_si_petaYear :
    (quantity { registry := builtIn } (.ofDouble 3.15576e22) "a" .si 3 true).1 = .ok "1 Pa" ∧
      ∃ m ∈ builtIn.linear? "Pa", ∃ b ∈ builtIn.linear? "a", ¬m.IsPowerTimes b 15 := by
  decide +kernel

end Rendering

end Metrology
