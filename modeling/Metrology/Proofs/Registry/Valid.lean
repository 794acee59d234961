import Mathlib.Data.String.Basic
import Metrology.Registry

/-!
# Valid registries

The invariant of registries, `Registry.Valid`: every multiplier can be used, and no symbol stands
for two things.

Each operation that writes comes with the condition under which it succeeds and with the look-ups
that it leaves, and keeps the invariant. Everything else that holds of every valid registry is read
off the two fields and the look-ups: the list of symbols is strictly increasing
(`Valid.pairwise_symbols`), and a symbol is found in exactly one way (`Valid.contains_iff`).
-/

namespace Metrology

/-! ### Results that can fail -/

theorem ok_of_mapError_eq_ok {α ε ε' : Type} {f : ε → ε'} {x : Except ε α} {a : α}
    (h : x.mapError f = .ok a) : x = .ok a := by
  rcases x with e | b
  · exact absurd h (by simp [Except.mapError])
  · exact congrArg Except.ok (Except.ok.inj h)

theorem exists_of_map_eq_ok {α β ε : Type} {f : α → β} {x : Except ε α} {b : β}
    (h : x.map f = .ok b) : ∃ a, x = .ok a ∧ f a = b := by
  rcases x with e | a
  · exact absurd h (by simp [Except.map])
  · exact ⟨a, rfl, Except.ok.inj h⟩

theorem exists_of_bind_eq_ok {α β ε : Type} {f : α → Except ε β} {x : Except ε α} {b : β}
    (h : x >>= f = .ok b) : ∃ a, x = .ok a ∧ f a = .ok b := by
  rcases x with e | a
  · exact absurd h (by simp [bind, Except.bind])
  · exact ⟨a, rfl, h⟩

/-- What every step keeps, a fold keeps if it succeeds. -/
theorem foldlM_ok_induction {α β ε : Type} {P : β → Prop} {f : β → α → Except ε β}
    (hstep : ∀ b a b', P b → f b a = .ok b' → P b') :
    ∀ {l : List α} {b b' : β}, P b → l.foldlM f b = .ok b' → P b'
  | [], b, b', hb, h => by
    obtain rfl : b = b' := Except.ok.inj h
    exact hb
  | a :: l, b, b', hb, h => by
    rw [List.foldlM_cons] at h
    obtain ⟨c, hfa, hrest⟩ := exists_of_bind_eq_ok h
    exact foldlM_ok_induction hstep (hstep b a c hb hfa) hrest

namespace SymbolMap

variable {α : Type}

theorem get?_insertAll (m : SymbolMap α) (symbols : List RawText) (value : α) (key : RawText) :
    (m.insertAll (symbols.map (·, value))).get? key =
      if key ∈ symbols then some value else m.get? key := by
  induction symbols generalizing m with
  | nil => rfl
  | cons symbol symbols ih =>
    rw [List.map_cons, insertAll, List.foldl_cons, ← insertAll, ih, get?_insert]
    by_cases hmem : key ∈ symbols
    · simp [hmem]
    · by_cases heq : key = symbol <;> simp [hmem, heq]

theorem contains_eq_false_iff {m : SymbolMap α} {symbol : RawText} :
    m.contains symbol = false ↔ m.get? symbol = none := by
  rw [contains, Option.isSome_eq_false_iff, Option.isNone_iff_eq_none]

end SymbolMap

theorem Double.isFinite_one : (1 : Double).isFinite = true := by decide +kernel

namespace Scalar

theorem le_log2_mul_twoTo {n : Nat} (h : 0 < n) (k : Nat) : k ≤ (n * twoTo k).log2 := by
  have hpow : 0 < twoTo k := Nat.pow_pos (by omega)
  rw [Nat.le_log2 (Nat.mul_pos h hpow).ne']
  exact Nat.le_mul_of_pos_left _ h

/-- A whole number that is not zero is no zero as a double either. -/
theorem isZero_ofInt {n : Int} (h : n ≠ 0) : (Double.ofInt n).isZero = false := by
  -- as a quotient of multiples of the least double, it is at least that large before rounding
  have hlog : 1074 ≤ (n.natAbs * Double.one / 1).log2 := by
    rw [Nat.div_one]
    exact le_log2_mul_twoTo (Int.natAbs_pos.2 h) _
  have hrank : 0 < Double.nearestRank (n.natAbs * Double.one) 1 := by
    rw [Double.nearestRank]
    exact Nat.add_pos_left (Nat.mul_pos (by omega) (Nat.pow_pos (by omega))) _
  rw [Double.ofInt, Double.ofQuotient, Double.nearest, Double.ofRank]
  split
  · rw [Double.isZero, beq_eq_false_iff_ne]
    exact hrank.ne'
  · rfl

theorem isZero_of_isUsable {x : Scalar} (h : x.isUsable = true) : x.isZero = false := by
  cases x with
  | double x =>
    rw [isUsable_double, Double.isFiniteNonzero, Bool.and_eq_true, Bool.not_eq_true'] at h
    exact h.2
  | int n =>
    rw [isUsable, Bool.and_eq_true, bne_iff_ne] at h
    exact beq_eq_false_iff_ne.2 h.1

/-- A usable number is a double that is neither zero nor infinite. -/
theorem exists_toDouble_of_isUsable {x : Scalar} (h : x.isUsable = true) :
    ∃ y : Double, x.toDouble = .ok y ∧ y.isFiniteNonzero = true := by
  cases x with
  | double x => exact ⟨x, rfl, h⟩
  | int n =>
    rw [isUsable, Bool.and_eq_true, bne_iff_ne] at h
    refine ⟨Double.ofInt n, by rw [toDouble, if_pos h.2], ?_⟩
    rw [Double.isFiniteNonzero, h.2, isZero_ofInt h.1]
    rfl

end Scalar

namespace Registry

/-- Every multiplier is usable, and no symbol has both a multiplier and a nonlinear unit. -/
structure Valid (r : Registry) : Prop where
  usable : ∀ {symbol : RawText} {multiplier : Scalar},
    r.linear? symbol = some multiplier → multiplier.isUsable = true
  disjoint : ∀ symbol : RawText, r.linear? symbol = none ∨ r.nonlinear? symbol = none

theorem valid_empty : (∅ : Registry).Valid := ⟨nofun, fun _ ↦ Or.inl rfl⟩

/-! ### What the operations do to the look-ups -/

variable {r r' : Registry}

theorem insertLinear_eq_ok_iff {symbol : RawText} {x : Double} :
    r.insertLinear symbol x = .ok r' ↔
      x.isFiniteNonzero = true ∧ r.nonlinear? symbol = none ∧
        r' = { r with linear := r.linear.insert symbol (.double x) } := by
  rw [insertLinear, nonlinear?, ← SymbolMap.contains_eq_false_iff]
  by_cases hx : x.isFiniteNonzero = true
  · by_cases hsymbol : r.nonlinear.contains symbol = true
    · simp [hx, hsymbol]
    · simp [hx, hsymbol, eq_comm]
  · simp [hx]

theorem insertScalar_eq_ok_iff {symbol : RawText} {multiplier : Scalar} :
    r.insertScalar symbol multiplier = .ok r' ↔
      ∃ x : Double, multiplier.toDouble = .ok x ∧ x.isFiniteNonzero = true ∧
        r.nonlinear? symbol = none ∧
        r' = { r with linear := r.linear.insert symbol (.double x) } := by
  rw [insertScalar]
  rcases multiplier.toDouble with e | x
  · simp [Except.mapError, bind, Except.bind]
  · simp only [Except.mapError, bind, Except.bind, Except.ok.injEq, exists_eq_left',
      ← insertLinear_eq_ok_iff]
    rcases r.insertLinear symbol x with e | r' <;> simp

theorem insertNonlinear_eq_ok_iff {unit : NonlinearUnit} :
    r.insertNonlinear unit = .ok r' ↔
      r.linear? unit.symbol = none ∧
        r' = { r with nonlinear := r.nonlinear.insert unit.symbol unit } := by
  rw [insertNonlinear, linear?, ← SymbolMap.contains_eq_false_iff]
  by_cases hsymbol : r.linear.contains unit.symbol = true
  · simp [hsymbol]
  · simp [hsymbol, eq_comm]

/-- Registering refuses the first symbol that stands in the way, so it succeeds if none does. -/
theorem ok_unless_found_iff {symbols : List RawText} {refuses : RawText → Bool} :
    (match symbols.find? refuses with
      | some symbol => .error (.registered symbol)
      | none => .ok r : Except RegistryError Registry) = .ok r' ↔
      (∀ symbol ∈ symbols, refuses symbol = false) ∧ r' = r := by
  rcases hfound : symbols.find? refuses with _ | symbol
  · have hall := List.find?_eq_none.1 hfound
    simp only [Bool.not_eq_true] at hall
    rw [Except.ok.injEq, eq_comm, iff_and_self]
    exact fun _ ↦ hall
  · have hmem := List.mem_of_find?_eq_some hfound
    have hrefused := List.find?_some hfound
    simp only [reduceCtorEq, false_iff, not_and]
    intro hall
    rw [hall symbol hmem] at hrefused
    exact absurd hrefused (by simp)

theorem register_eq_ok_iff {unit : LinearUnit} :
    r.register unit = .ok r' ↔
      (∀ symbol ∈ unit.symbols, r.admits unit.multiplier symbol = true) ∧
        r' = { r with linear := r.linear.insertAll (unit.symbols.map (·, unit.multiplier)) } := by
  refine ok_unless_found_iff.trans (and_congr_left fun _ ↦ ?_)
  simp only [Bool.not_eq_false']

theorem registerNonlinear_eq_ok_iff {unit : NonlinearUnit} :
    r.registerNonlinear unit = .ok r' ↔
      (∀ symbol ∈ unit.symbols, r.contains symbol = false) ∧
        r' = { r with nonlinear := r.nonlinear.insertAll (unit.symbols.map (·, unit)) } :=
  ok_unless_found_iff

/-! ### What the operations leave alone -/

/-- Two registries agree on every symbol that is not one of some. -/
structure AgreesOff (r : Registry) (symbols : List RawText) (r' : Registry) : Prop where
  linear_eq : ∀ {symbol : RawText}, symbol ∉ symbols → r'.linear? symbol = r.linear? symbol
  nonlinear_eq : ∀ {symbol : RawText}, symbol ∉ symbols → r'.nonlinear? symbol = r.nonlinear? symbol

theorem agreesOff_refl (r : Registry) (symbols : List RawText) : r.AgreesOff symbols r :=
  ⟨fun _ ↦ rfl, fun _ ↦ rfl⟩

theorem agreesOff_insertScalar {symbol : RawText} {multiplier : Scalar}
    (hok : r.insertScalar symbol multiplier = .ok r') : r.AgreesOff [symbol] r' := by
  obtain ⟨x, -, -, -, rfl⟩ := insertScalar_eq_ok_iff.1 hok
  refine ⟨fun hkey ↦ ?_, fun _ ↦ rfl⟩
  rw [linear?, SymbolMap.get?_insert, if_neg (List.ne_of_not_mem_cons hkey)]
  rfl

theorem agreesOff_insertNonlinear {unit : NonlinearUnit} (hok : r.insertNonlinear unit = .ok r') :
    r.AgreesOff [unit.symbol] r' := by
  obtain ⟨-, rfl⟩ := insertNonlinear_eq_ok_iff.1 hok
  refine ⟨fun _ ↦ rfl, fun hkey ↦ ?_⟩
  rw [nonlinear?, SymbolMap.get?_insert, if_neg (List.ne_of_not_mem_cons hkey)]
  rfl

theorem agreesOff_register {unit : LinearUnit} (hok : r.register unit = .ok r') :
    r.AgreesOff unit.symbols r' := by
  obtain ⟨-, rfl⟩ := register_eq_ok_iff.1 hok
  refine ⟨fun hkey ↦ ?_, fun _ ↦ rfl⟩
  rw [linear?, SymbolMap.get?_insertAll, if_neg hkey]
  rfl

theorem agreesOff_registerNonlinear {unit : NonlinearUnit}
    (hok : r.registerNonlinear unit = .ok r') : r.AgreesOff unit.symbols r' := by
  obtain ⟨-, rfl⟩ := registerNonlinear_eq_ok_iff.1 hok
  refine ⟨fun _ ↦ rfl, fun hkey ↦ ?_⟩
  rw [nonlinear?, SymbolMap.get?_insertAll, if_neg hkey]
  rfl

/-! ### The operations keep the invariant -/

theorem Valid.insertLinear (h : r.Valid) {symbol : RawText} {x : Double}
    (hok : r.insertLinear symbol x = .ok r') : r'.Valid := by
  obtain ⟨hx, hsymbol, rfl⟩ := insertLinear_eq_ok_iff.1 hok
  refine ⟨fun {key multiplier} hkey ↦ ?_, fun key ↦ ?_⟩
  · rw [linear?, SymbolMap.get?_insert] at hkey
    split at hkey
    · exact Option.some_inj.1 hkey ▸ hx
    · exact h.usable hkey
  · by_cases hkey : key = symbol
    · exact Or.inr (hkey ▸ hsymbol)
    · rw [linear?, SymbolMap.get?_insert, if_neg hkey]
      exact h.disjoint key

theorem Valid.insertScalar (h : r.Valid) {symbol : RawText} {multiplier : Scalar}
    (hok : r.insertScalar symbol multiplier = .ok r') : r'.Valid := by
  obtain ⟨x, -, hx⟩ := insertScalar_eq_ok_iff.1 hok
  exact h.insertLinear (insertLinear_eq_ok_iff.2 hx)

theorem Valid.insertNonlinear (h : r.Valid) {unit : NonlinearUnit}
    (hok : r.insertNonlinear unit = .ok r') : r'.Valid := by
  obtain ⟨hsymbol, rfl⟩ := insertNonlinear_eq_ok_iff.1 hok
  refine ⟨h.usable, fun key ↦ ?_⟩
  by_cases hkey : key = unit.symbol
  · exact Or.inl (hkey ▸ hsymbol)
  · rw [nonlinear?, SymbolMap.get?_insert, if_neg hkey]
    exact h.disjoint key

theorem Valid.register (h : r.Valid) {unit : LinearUnit} (hok : r.register unit = .ok r') :
    r'.Valid := by
  obtain ⟨hadmits, rfl⟩ := register_eq_ok_iff.1 hok
  refine ⟨fun {key multiplier} hkey ↦ ?_, fun key ↦ ?_⟩
  · rw [linear?, SymbolMap.get?_insertAll] at hkey
    split at hkey
    · exact Option.some_inj.1 hkey ▸ unit.usable
    · exact h.usable hkey
  · by_cases hkey : key ∈ unit.symbols
    · have hfree := hadmits key hkey
      rw [admits, Bool.and_eq_true, Bool.not_eq_true', SymbolMap.contains_eq_false_iff] at hfree
      exact Or.inr hfree.1
    · rw [linear?, SymbolMap.get?_insertAll, if_neg hkey]
      exact h.disjoint key

theorem Valid.registerNonlinear (h : r.Valid) {unit : NonlinearUnit}
    (hok : r.registerNonlinear unit = .ok r') : r'.Valid := by
  obtain ⟨hfree, rfl⟩ := registerNonlinear_eq_ok_iff.1 hok
  refine ⟨h.usable, fun key ↦ ?_⟩
  by_cases hkey : key ∈ unit.symbols
  · have hnone := hfree key hkey
    rw [contains, Bool.or_eq_false_iff, SymbolMap.contains_eq_false_iff] at hnone
    exact Or.inl hnone.1
  · rw [nonlinear?, SymbolMap.get?_insertAll, if_neg hkey]
    exact h.disjoint key

theorem valid_of_ofMultipliers {multipliers : SymbolMap Scalar}
    (hok : ofMultipliers multipliers = .ok r) : r.Valid :=
  foldlM_ok_induction (fun _ _ _ h hstep ↦ h.insertScalar hstep) valid_empty hok

theorem valid_of_seed {linear : List LinearUnit} {nonlinear : List NonlinearUnit}
    (hok : seed linear nonlinear = .ok r) : r.Valid := by
  rw [seed] at hok
  split at hok
  · exact absurd hok (by simp)
  · obtain ⟨r₁, hlinear, hnonlinear⟩ := exists_of_bind_eq_ok hok
    have hvalid : r₁.Valid :=
      foldlM_ok_induction (fun _ _ _ h hstep ↦ h.register hstep) valid_empty hlinear
    exact foldlM_ok_induction (fun _ _ _ h hstep ↦ h.registerNonlinear hstep) hvalid hnonlinear

theorem valid_builtIn : builtIn.Valid := by
  delta builtIn
  split
  · next r hok => exact valid_of_seed hok
  · exact valid_empty

/-! ### What every valid registry is like -/

theorem contains_iff {symbol : RawText} :
    r.contains symbol = true ↔ symbol ∈ r.linear.keys ++ r.nonlinear.keys := by
  rw [contains, Bool.or_eq_true, SymbolMap.contains_iff_mem_keys, SymbolMap.contains_iff_mem_keys,
    List.mem_append]

theorem contains_eq_false_iff {symbol : RawText} :
    r.contains symbol = false ↔ r.linear? symbol = none ∧ r.nonlinear? symbol = none := by
  rw [contains, Bool.or_eq_false_iff, SymbolMap.contains_eq_false_iff,
    SymbolMap.contains_eq_false_iff]
  rfl

theorem mem_symbols {symbol : RawText} : symbol ∈ r.symbols ↔ r.contains symbol = true := by
  rw [symbols, List.mem_mergeSort, contains_iff]

theorem length_symbols (r : Registry) : r.symbols.length = r.size := by
  rw [symbols, List.length_mergeSort, List.length_append, SymbolMap.length_keys,
    SymbolMap.length_keys, size]

theorem Valid.nodup_keys (h : r.Valid) : (r.linear.keys ++ r.nonlinear.keys).Nodup := by
  refine List.nodup_append.2 ⟨r.linear.nodup_keys, r.nonlinear.nodup_keys, ?_⟩
  rintro symbol hlinear _ hnonlinear rfl
  rcases h.disjoint symbol with hnone | hnone
  · exact SymbolMap.get?_eq_none_iff.1 hnone hlinear
  · exact SymbolMap.get?_eq_none_iff.1 hnone hnonlinear

theorem sorted_symbols (r : Registry) :
    r.symbols.Pairwise fun s t ↦ decide (s ≤ t) = true :=
  List.pairwise_mergeSort (by simpa using fun _ _ _ ↦ RawText.le_trans)
    (by simpa using RawText.le_total) _

/-- The symbols are listed in strictly increasing order. -/
theorem Valid.pairwise_symbols (h : r.Valid) : r.symbols.Pairwise (· < ·) := by
  -- sorting gives an increasing list; it is strictly so because no symbol has two entries
  have hnodup : r.symbols.Nodup := (List.mergeSort_perm _ _).nodup_iff.2 h.nodup_keys
  refine (r.sorted_symbols.and hnodup).imp fun {s t} hst ↦ ?_
  exact RawText.lt_of_le_of_ne (of_decide_eq_true hst.1) hst.2

/-- A contained symbol is found in exactly one way. -/
theorem Valid.xor_of_contains (h : r.Valid) {symbol : RawText}
    (hsymbol : r.contains symbol = true) :
    Xor (r.linear? symbol).isSome (r.nonlinear? symbol).isSome := by
  rw [contains, Bool.or_eq_true] at hsymbol
  rcases h.disjoint symbol with hnone | hnone
  · have hsome := hsymbol.resolve_left (by simp [SymbolMap.contains_eq_false_iff.2 hnone])
    exact Or.inr ⟨hsome, by simp [hnone]⟩
  · have hsome := hsymbol.resolve_right (by simp [SymbolMap.contains_eq_false_iff.2 hnone])
    exact Or.inl ⟨hsome, by simp [hnone]⟩

end Registry

end Metrology
