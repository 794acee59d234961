import Metrology.Proofs.Converter.Call

/-!
# What a call is charged

Each call adds to the counters of the converter and, by memoizing, to the size of the registry. What
it adds is an account of its own (`Converter.Spends`), and the account **balances**
(`Statistics.Balances`):

* what was converted and what was refused is what was to be converted;
* what was looked up and what was parsed is what was converted and the multipliers that were given;
* what was memoized has been parsed.

The account is drawn up where the counting is done: an answer to resolving a unit is charged one
look up or one parse (`exists_spends_resolve`), a failure to resolve it nothing
(`resolve_snd_of_unit_error`), and the conversion one more entry either way. Failures of another
kind leave a look up without its conversion, so calls that end in one are left out (`settles`).
-/

namespace Metrology

/-! ### Accounts -/

attribute [ext] Statistics

namespace Statistics

/-- Two accounts together. -/
instance : Add Statistics where
  add s t :=
    { conversions := s.conversions + t.conversions
      registryHits := s.registryHits + t.registryHits
      parsedUnits := s.parsedUnits + t.parsedUnits
      memoizedUnits := s.memoizedUnits + t.memoizedUnits
      errors := s.errors + t.errors }

variable {s t : Statistics} {attempts attempts' given given' : Nat}

theorem memoizedUnits_add (s t : Statistics) :
    (s + t).memoizedUnits = s.memoizedUnits + t.memoizedUnits := rfl

theorem nothing_add (s : Statistics) : {} + s = s := by
  ext <;> exact Nat.zero_add _

theorem add_assoc (s t u : Statistics) : s + t + u = s + (t + u) := by
  ext <;> exact Nat.add_assoc _ _ _

/-- An account is that of some attempts to convert and some multipliers given. -/
structure Balances (s : Statistics) (attempts given : Nat) : Prop where
  settled : s.conversions + s.errors = attempts
  resolved : s.registryHits + s.parsedUnits = s.conversions + given
  memoized : s.memoizedUnits ≤ s.parsedUnits

theorem balances_nothing : Balances {} 0 0 := ⟨rfl, rfl, le_rfl⟩

theorem Balances.add (h : s.Balances attempts given) (h' : t.Balances attempts' given') :
    (s + t).Balances (attempts + attempts') (given + given') where
  settled := by
    have hs := h.settled
    have ht := h'.settled
    show s.conversions + t.conversions + (s.errors + t.errors) = attempts + attempts'
    omega
  resolved := by
    have hs := h.resolved
    have ht := h'.resolved
    show s.registryHits + t.registryHits + (s.parsedUnits + t.parsedUnits) =
      s.conversions + t.conversions + (given + given')
    omega
  memoized := Nat.add_le_add h.memoized h'.memoized

/-- A multiplier that is converted by instead of being given. -/
theorem Balances.converted (h : s.Balances 0 1) : (s + { conversions := 1 }).Balances 1 0 where
  settled := by
    have hs := h.settled
    show s.conversions + 1 + s.errors = 1
    omega
  resolved := h.resolved
  memoized := h.memoized

end Statistics

/-! ### Charging a converter -/

/-- A call ends in a result or in the failure to resolve a unit. -/
def settles {α : Type} : Except Failure α → Bool
  | .ok _ | .error (.unit _) => true
  | .error _ => false

theorem settles_of_map {α β : Type} {f : α → β} {result : Except Failure α}
    (h : settles (result.map f) = true) : settles result = true := by
  rcases result with e | a
  · cases e with
    | unit => rfl
    | _ => exact absurd h Bool.false_ne_true
  · rfl

namespace Converter

/-- A converter has been charged with an account, and its registry has grown by the units that were
memoized. -/
structure Spends (c : Converter) (spent : Statistics) (after : Converter) : Prop where
  statistics_eq : after.statistics = c.statistics + spent
  size_eq : after.registry.size = c.registry.size + spent.memoizedUnits

variable {c after last : Converter} {spent spent' : Statistics}

theorem spends_refl (c : Converter) : c.Spends {} c := ⟨rfl, rfl⟩

theorem Spends.trans (h : c.Spends spent after) (h' : after.Spends spent' last) :
    c.Spends (spent + spent') last where
  statistics_eq := by rw [h'.statistics_eq, h.statistics_eq, Statistics.add_assoc]
  size_eq := by
    rw [h'.size_eq, h.size_eq, Statistics.memoizedUnits_add]
    omega

theorem spends_countHit (c : Converter) : c.Spends { registryHits := 1 } c.countHit := ⟨rfl, rfl⟩

theorem spends_countParsed (c : Converter) : c.Spends { parsedUnits := 1 } c.countParsed :=
  ⟨rfl, rfl⟩

theorem spends_countConversion (c : Converter) :
    c.Spends { conversions := 1 } c.countConversion := ⟨rfl, rfl⟩

/-- The memoized unit is new, so the registry has one unit more. -/
theorem spends_memoized {unit : RawText} {multiplier : Scalar} {registry : Registry}
    (hlinear : c.registry.linear? unit = none)
    (hinsert : c.registry.insertScalar unit multiplier = .ok registry) :
    c.Spends { memoizedUnits := 1 } (c.memoized unit multiplier registry) := by
  obtain ⟨x, -, -, -, rfl⟩ := Registry.insertScalar_eq_ok_iff.1 hinsert
  have hnew : unit ∉ c.registry.linear.keys := SymbolMap.get?_eq_none_iff.1 hlinear
  refine ⟨rfl, ?_⟩
  show (c.registry.linear.insert unit (.double x)).size + c.registry.nonlinear.size =
    c.registry.linear.size + c.registry.nonlinear.size + 1
  rw [SymbolMap.size_insert, if_neg hnew]
  omega

theorem spends_refuse (c : Converter) (loud : Bool) (symbol : RawText) (cause : UnitError)
    (value : Value) : c.Spends { errors := 1 } (c.refuse loud symbol cause value).2 := by
  cases loud <;> exact ⟨rfl, rfl⟩

/-! ### Resolving a unit -/

variable {p : Preferences} {unit : Option RawText} {direction : Direction} {request : Request}
  {value : Value}

/-- A multiplier is charged one look up or one parse, and one memoized unit at most. -/
theorem exists_spends_resolve {multiplier : Scalar} (h : (c.resolve p unit).1 = .ok multiplier) :
    ∃ spent, c.Spends spent (c.resolve p unit).2 ∧ spent.Balances 0 1 := by
  rcases houtcome : c.resolve p unit with ⟨answer, after⟩
  have hresolution := houtcome ▸ resolution c p unit
  rw [houtcome] at h
  cases hresolution with
  | registered => exact ⟨_, c.spends_countHit, rfl, rfl, le_rfl⟩
  | parsed => exact ⟨_, c.spends_countParsed, rfl, rfl, Nat.zero_le 1⟩
  | memoized hlinear _ _ _ hinsert =>
    exact ⟨_, c.spends_countParsed.trans (spends_memoized hlinear hinsert), rfl, rfl, le_rfl⟩
  | unknown | failed | refused => exact absurd h (by simp)

theorem insertScalar_ne_unit_error (r : Registry) (symbol : RawText) (multiplier : Scalar)
    (cause : UnitError) : r.insertScalar symbol multiplier ≠ .error (.unit cause) := by
  rw [Registry.insertScalar]
  rcases multiplier.toDouble with e | x
  · exact fun h ↦ absurd (Except.error.inj h) (by simp)
  · show (r.insertLinear symbol x).mapError Failure.registry ≠ .error (.unit cause)
    rcases r.insertLinear symbol x with e | r'
    · exact fun h ↦ absurd (Except.error.inj h) (by simp)
    · exact fun h ↦ absurd h (by simp [Except.mapError])

/-- A unit that cannot be resolved is charged nothing. -/
theorem resolve_snd_of_unit_error {cause : UnitError}
    (h : (c.resolve p unit).1 = .error (.unit cause)) : (c.resolve p unit).2 = c := by
  rcases houtcome : c.resolve p unit with ⟨answer, after⟩
  have hresolution := houtcome ▸ resolution c p unit
  rw [houtcome] at h
  cases hresolution with
  | unknown | failed => rfl
  | registered | parsed | memoized => exact absurd h (by simp)
  | refused _ _ _ _ hinsert =>
    obtain rfl := Except.error.inj h
    exact absurd hinsert (insertScalar_ne_unit_error _ _ _ cause)

/-! ### Single conversions -/

/-- What a single conversion counts for: one, if there is a unit to convert by. -/
def attemptsBy (unit : Option RawText) : Nat := if unit = none ∨ unit = some "" then 0 else 1

theorem attemptsBy_some {symbol : RawText} (h : symbol ≠ "") : attemptsBy (some symbol) = 1 := by
  rw [attemptsBy, if_neg (by simpa using h)]

theorem exists_spends_convertBy
    (hsettles : settles (c.convertBy direction request value unit).1 = true) :
    ∃ spent, c.Spends spent (c.convertBy direction request value unit).2 ∧
      spent.Balances (attemptsBy unit) 0 := by
  have hconversion := conversion c direction request value unit
  generalize c.convertBy direction request value unit = result at hconversion hsettles ⊢
  cases hconversion with
  | idle hunit =>
    rw [attemptsBy, if_pos hunit]
    exact ⟨{}, c.spends_refl, Statistics.balances_nothing⟩
  | @nonlinear symbol nonlinear hsymbol _ =>
    rw [attemptsBy_some hsymbol]
    rcases hresult : (direction.map nonlinear).run value with e | result
    · rw [hresult] at hsettles
      exact absurd hsettles Bool.false_ne_true
    · have hhit : Statistics.Balances { registryHits := 1 } 0 1 := ⟨rfl, rfl, le_rfl⟩
      exact ⟨_, c.spends_countHit.trans (spends_countConversion _), hhit.converted⟩
  | @linear symbol hsymbol _ =>
    rw [attemptsBy_some hsymbol]
    rcases hresolve : c.resolve (c.preferences.override request) (some symbol) with
      ⟨e | multiplier, after⟩
    · rw [hresolve] at hsettles
      cases e with
      | unit cause =>
        -- nothing has been counted until now, so the error is all there is
        have hkept := resolve_snd_of_unit_error (congrArg Prod.fst hresolve)
        rw [hresolve] at hkept
        obtain rfl : after = c := hkept
        exact ⟨_, after.spends_refuse _ symbol cause value, rfl, rfl, le_rfl⟩
      | _ => exact absurd hsettles Bool.false_ne_true
    · -- the look up or the parse is that of the conversion, if the arithmetic goes through
      obtain ⟨spent, hspent, hbalances⟩ := exists_spends_resolve (congrArg Prod.fst hresolve)
      rw [hresolve] at hsettles hspent
      rw [settle] at hsettles ⊢
      rcases hresult : (direction.step multiplier).run value with e | result
      · rw [hresult] at hsettles
        exact absurd hsettles Bool.false_ne_true
      · exact ⟨_, hspent.trans (spends_countConversion after), hbalances.converted⟩

/-! ### Conversions between two units -/

/-- The single conversions that a conversion between two different units attempts: the second only
after the first. -/
def attemptsBetween (c : Converter) (value : Value) (source target : Option RawText) : Nat :=
  match (c.toInternal { failLoud := some true } value source).1 with
  | .ok _ => attemptsBy source + attemptsBy target
  | .error _ => attemptsBy source

theorem exists_spends_convertLoudly {source target : Option RawText}
    (hsettles : settles (c.convertLoudly value source target).1 = true) :
    ∃ spent, c.Spends spent (c.convertLoudly value source target).2 ∧
      spent.Balances (c.attemptsBetween value source target) 0 := by
  have hspends : settles (c.convertBy .toInternal { failLoud := some true } value source).1 = true →
      ∃ spent, c.Spends spent
        (c.convertBy .toInternal { failLoud := some true } value source).2 ∧
          spent.Balances (attemptsBy source) 0 := exists_spends_convertBy
  have hrelay := c.relay value source target
  rw [attemptsBetween, toInternal]
  generalize c.convertLoudly value source target = result at hrelay hsettles ⊢
  cases hrelay with
  | stopped hfirst =>
    rw [hfirst] at hspends ⊢
    exact hspends hsettles
  | passed hfirst =>
    rw [hfirst] at hspends ⊢
    obtain ⟨spent, hspent, hbalances⟩ := hspends rfl
    obtain ⟨spent', hspent', hbalances'⟩ := exists_spends_convertBy hsettles
    exact ⟨spent + spent', hspent.trans hspent', hbalances.add hbalances'⟩

end Converter

/-! ### All calls -/

namespace Call

open Converter

/-- The single conversions with a unit that a call of a converter attempts. -/
def attempts (c : Converter) : Call → Nat
  | single _ _ _ unit | accepts _ unit => attemptsBy unit
  | between _ value source target =>
    if source = target then 0 else c.attemptsBetween value source target
  | multiplier _ _ => 0

/-- The multipliers that a call of a converter is answered with. -/
def given (c : Converter) : Call → Nat
  | multiplier request unit => if (c.multiplier request unit).1.isOk then 1 else 0
  | _ => 0

variable {c : Converter}

theorem exists_spends_between {failLoud : Option Bool} {value : Value}
    {source target : Option RawText}
    (hsettles : settles (c.convert failLoud value source target).1 = true) :
    ∃ spent, c.Spends spent (c.convert failLoud value source target).2 ∧
      spent.Balances ((between failLoud value source target).attempts c) 0 := by
  have hspends : settles (c.convertLoudly value source target).1 = true →
      ∃ spent, c.Spends spent (c.convertLoudly value source target).2 ∧
        spent.Balances (c.attemptsBetween value source target) 0 := exists_spends_convertLoudly
  have hexchange := c.exchange failLoud value source target
  rw [attempts]
  generalize c.convert failLoud value source target = result at hexchange hsettles ⊢
  cases hexchange with
  | same heq =>
    rw [if_pos heq]
    exact ⟨{}, c.spends_refl, Statistics.balances_nothing⟩
  | settled hne hloudly _ =>
    rw [if_neg hne]
    exact hloudly ▸ hspends (hloudly ▸ hsettles)
  | refused hne hloudly =>
    rw [hloudly] at hspends
    rw [if_neg hne]
    exact hspends rfl

theorem exists_spends_accepts {parseCompound : Option Bool} {unit : Option RawText}
    (hsettles : settles (c.accepts parseCompound unit).1 = true) :
    ∃ spent, c.Spends spent (c.accepts parseCompound unit).2 ∧
      spent.Balances (attemptsBy unit) 0 := by
  rw [accepts_eq] at hsettles ⊢
  exact exists_spends_convertBy (settles_of_map hsettles)

theorem exists_spends_multiplier {request : Request} {unit : Option RawText}
    (hsettles : settles (c.multiplier request unit).1 = true) :
    ∃ spent, c.Spends spent (c.multiplier request unit).2 ∧
      spent.Balances 0 ((multiplier request unit).given c) := by
  rw [given]
  rw [Converter.multiplier] at hsettles ⊢
  split
  · exact ⟨{}, c.spends_refl, Statistics.balances_nothing⟩
  · next hnonlinear =>
    rw [hnonlinear] at hsettles
    rcases hresolve : (c.resolve (c.preferences.override request) unit).1 with e | multiplier
    · cases e with
      | unit cause =>
        rw [resolve_snd_of_unit_error hresolve]
        exact ⟨{}, c.spends_refl, Statistics.balances_nothing⟩
      | _ =>
        rw [hresolve] at hsettles
        exact absurd hsettles Bool.false_ne_true
    · exact exists_spends_resolve hresolve

/-- A call that settles is charged with an account of its attempts and of what it gives. -/
theorem exists_spends_run (call : Call) (hsettles : settles (call.run c).1 = true) :
    ∃ spent, c.Spends spent (call.run c).2 ∧
      spent.Balances (call.attempts c) (call.given c) := by
  cases call with
  | single => exact exists_spends_convertBy (settles_of_map hsettles)
  | between => exact exists_spends_between (settles_of_map hsettles)
  | accepts => exact exists_spends_accepts (settles_of_map hsettles)
  | multiplier => exact exists_spends_multiplier (settles_of_map hsettles)

end Call

end Metrology
