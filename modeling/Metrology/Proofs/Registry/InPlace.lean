import Metrology.Proofs.Registry.Valid

/-!
# Writing in place

An operation of a registry gives a new one or fails, so nothing can be half done. Here the same
operations are done on a registry that is there, step by step, and what a step has written stays
when a later one fails (`Write.inPlace`). It comes to the same (`Write.on_inPlace`): what fails
leaves the registry as it was, and what succeeds leaves the registry that the operation gives.

For a definition of many symbols that rests on the order of the steps. All checks come before all
writes: checking changes nothing (`InPlace.on_checkAll`), and writing cannot fail
(`InPlace.on_writeAll`).
-/

namespace Metrology.Registry

/-! ### Work on a registry -/

/-- Work that reads and writes a registry, and can fail on the way. -/
abbrev InPlace (α : Type) := ExceptT Failure (StateM Registry) α

namespace InPlace

variable {α β : Type} {r r' : Registry}

/-- What work comes to on a registry: a result or a failure, and the registry that it leaves. -/
def on (work : InPlace α) (r : Registry) : Except Failure α × Registry := work.run.run r

theorem on_bind_of_ok {work : InPlace α} {next : α → InPlace β} {a : α}
    (h : work.on r = (.ok a, r')) : (work >>= next).on r = (next a).on r' := by
  show StateT.run (ExceptT.run _) _ = _
  rw [ExceptT.run_bind, StateT.run_bind, show StateT.run (ExceptT.run work) r = _ from h]
  rfl

/-- What a failing step leaves stays. -/
theorem on_bind_of_error {work : InPlace α} {next : α → InPlace β} {e : Failure}
    (h : work.on r = (.error e, r')) : (work >>= next).on r = (.error e, r') := by
  show StateT.run (ExceptT.run _) _ = _
  rw [ExceptT.run_bind, StateT.run_bind, show StateT.run (ExceptT.run work) r = _ from h]
  rfl

theorem on_get (r : Registry) : (get : InPlace Registry).on r = (.ok r, r) := rfl

theorem on_modify (write : Registry → Registry) (r : Registry) :
    (modify write : InPlace Unit).on r = (.ok (), write r) := rfl

theorem on_ofExcept (result : Except Failure α) (r : Registry) :
    (MonadExcept.ofExcept result : InPlace α).on r = (result, r) := by
  cases result <;> rfl

/-- Fails if the registry refuses what is to come. -/
def refuse (refuses : Registry → Bool) (cause : RegistryError) : InPlace Unit := do
  if refuses (← get) then throw (.registry cause)

theorem on_refuse (refuses : Registry → Bool) (cause : RegistryError) (r : Registry) :
    (refuse refuses cause).on r =
      (if refuses r then .error (.registry cause) else .ok (), r) := by
  rw [refuse, on_bind_of_ok (on_get r)]
  split <;> rfl

/-- Work after a check. -/
theorem on_refuse_bind (refuses : Registry → Bool) (cause : RegistryError)
    (next : Unit → InPlace α) (r : Registry) :
    (refuse refuses cause >>= next).on r =
      if refuses r then (.error (.registry cause), r) else (next ()).on r := by
  have hrefuse := on_refuse refuses cause r
  split
  · next h => exact on_bind_of_error (hrefuse.trans (by rw [if_pos h]))
  · next h => exact on_bind_of_ok (hrefuse.trans (by rw [if_neg h]))

/-! ### Many symbols -/

/-- Checks symbols one after the other. -/
def checkAll (refuses : Registry → RawText → Bool) (symbols : List RawText) : InPlace Unit :=
  forM symbols fun symbol ↦ refuse (refuses · symbol) (.registered symbol)

/-- Writes symbols one after the other. -/
def writeAll (write : Registry → RawText → Registry) (symbols : List RawText) : InPlace Unit :=
  forM symbols fun symbol ↦ modify (write · symbol)

/-- Checking fails at the first symbol that is refused, and changes nothing. -/
theorem on_checkAll (refuses : Registry → RawText → Bool) (symbols : List RawText) (r : Registry) :
    (checkAll refuses symbols).on r =
      (match symbols.find? (refuses r) with
        | some symbol => .error (.registry (.registered symbol))
        | none => .ok (), r) := by
  induction symbols with
  | nil => rfl
  | cons symbol symbols ih =>
    rw [checkAll, List.forM_cons, on_refuse_bind, List.find?_cons]
    rcases refuses r symbol with _ | _
    · exact ih
    · rfl

/-- Writing cannot fail. -/
theorem on_writeAll (write : Registry → RawText → Registry) (symbols : List RawText)
    (r : Registry) :
    (writeAll write symbols).on r = (.ok (), symbols.foldl write r) := by
  induction symbols generalizing r with
  | nil => rfl
  | cons symbol symbols ih =>
    rw [writeAll, List.forM_cons, on_bind_of_ok (on_modify (write · symbol) r)]
    exact ih (write r symbol)

end InPlace

/-! ### The operations -/

open InPlace

/-- Gives a symbol a multiplier, whatever it stood for. -/
def setLinear (r : Registry) (symbol : RawText) (multiplier : Scalar) : Registry :=
  { r with linear := r.linear.insert symbol multiplier }

/-- Gives a symbol a nonlinear unit, whatever it stood for. -/
def setNonlinear (r : Registry) (symbol : RawText) (unit : NonlinearUnit) : Registry :=
  { r with nonlinear := r.nonlinear.insert symbol unit }

theorem foldl_setLinear (symbols : List RawText) (multiplier : Scalar) (r : Registry) :
    symbols.foldl (setLinear · · multiplier) r =
      { r with linear := r.linear.insertAll (symbols.map (·, multiplier)) } := by
  induction symbols generalizing r with
  | nil => rfl
  | cons symbol symbols ih => exact ih (r.setLinear symbol multiplier)

theorem foldl_setNonlinear (symbols : List RawText) (unit : NonlinearUnit) (r : Registry) :
    symbols.foldl (setNonlinear · · unit) r =
      { r with nonlinear := r.nonlinear.insertAll (symbols.map (·, unit)) } := by
  induction symbols generalizing r with
  | nil => rfl
  | cons symbol symbols ih => exact ih (r.setNonlinear symbol unit)

/-- What can be written to a registry. -/
inductive Write where
  | insertLinear (symbol : RawText) (multiplier : Scalar)
  | insertNonlinear (unit : NonlinearUnit)
  | register (unit : LinearUnit)
  | registerNonlinear (unit : NonlinearUnit)

namespace Write

/-- The registry that a write gives, or its failure. -/
def apply (r : Registry) : Write → Except Failure Registry
  | insertLinear symbol multiplier => r.insertScalar symbol multiplier
  | insertNonlinear unit => (r.insertNonlinear unit).mapError Failure.registry
  | register unit => (r.register unit).mapError Failure.registry
  | registerNonlinear unit => (r.registerNonlinear unit).mapError Failure.registry

/-- The steps of a write. -/
def inPlace : Write → InPlace Unit
  | insertLinear symbol multiplier => do
    let x ← MonadExcept.ofExcept (multiplier.toDouble.mapError Failure.number)
    refuse (fun _ ↦ !x.isFiniteNonzero) (.unusableMultiplier symbol x)
    refuse (·.nonlinear.contains symbol) (.registeredNonlinear symbol)
    modify (·.setLinear symbol (.double x))
  | insertNonlinear unit => do
    refuse (·.linear.contains unit.symbol) (.registeredLinear unit.symbol)
    modify (·.setNonlinear unit.symbol unit)
  | register unit => do
    checkAll (fun r symbol ↦ !r.admits unit.multiplier symbol) unit.symbols
    writeAll (setLinear · · unit.multiplier) unit.symbols
  | registerNonlinear unit => do
    checkAll contains unit.symbols
    writeAll (setNonlinear · · unit) unit.symbols

/-- What is there after a new registry has been asked for: the new one, or the old one if there was
a failure. -/
def settle (r : Registry) : Except Failure Registry → Except Failure Unit × Registry
  | .ok r' => (.ok (), r')
  | .error e => (.error e, r)

/-- Checks before writes, over many symbols. -/
theorem on_checkAll_bind {refuses : Registry → RawText → Bool}
    {write : Registry → RawText → Registry}
    {symbols : List RawText} {r r' : Registry} (hwrite : symbols.foldl write r = r') :
    (checkAll refuses symbols >>= fun _ ↦ writeAll write symbols).on r =
      settle r (Except.mapError Failure.registry
        (match symbols.find? (refuses r) with
          | some symbol => .error (.registered symbol)
          | none => .ok r')) := by
  have hcheck := on_checkAll refuses symbols r
  rcases hfound : symbols.find? (refuses r) with _ | symbol
  · rw [hfound] at hcheck
    rw [on_bind_of_ok hcheck, on_writeAll, hwrite]
    rfl
  · rw [hfound] at hcheck
    exact on_bind_of_error hcheck

/-- **In place a write does what it gives**, and nothing if it fails. -/
theorem on_inPlace (w : Write) (r : Registry) : w.inPlace.on r = settle r (w.apply r) := by
  cases w with
  | insertLinear symbol multiplier =>
    rw [inPlace, apply, insertScalar]
    rcases multiplier.toDouble with e | x
    · rfl
    · refine (on_bind_of_ok (on_ofExcept (.ok x) r)).trans ?_
      rw [on_refuse_bind, on_refuse_bind, on_modify]
      show _ = settle r ((r.insertLinear symbol x).mapError Failure.registry)
      rw [Registry.insertLinear]
      split
      · rfl
      · split <;> rfl
  | insertNonlinear unit =>
    rw [inPlace, apply, on_refuse_bind, on_modify, Registry.insertNonlinear]
    split <;> rfl
  | register unit => exact on_checkAll_bind (foldl_setLinear unit.symbols unit.multiplier r)
  | registerNonlinear unit => exact on_checkAll_bind (foldl_setNonlinear unit.symbols unit r)

end Write

/-! ### Strict registration -/

variable {r r' : Registry}

theorem admits_iff {multiplier : Scalar} {symbol : RawText} :
    r.admits multiplier symbol = true ↔ r.nonlinear? symbol = none ∧
      ∀ old, r.linear? symbol = some old → old.eqv multiplier = true := by
  rw [admits, Bool.and_eq_true, Bool.not_eq_true', SymbolMap.contains_eq_false_iff,
    Option.all_eq_true]
  rfl

theorem linear?_of_register {unit : LinearUnit} (h : r.register unit = .ok r') (symbol : RawText) :
    r'.linear? symbol =
      if symbol ∈ unit.symbols then some unit.multiplier else r.linear? symbol := by
  obtain ⟨-, rfl⟩ := register_eq_ok_iff.1 h
  exact SymbolMap.get?_insertAll _ _ _ _

theorem nonlinear_of_register {unit : LinearUnit} (h : r.register unit = .ok r') :
    r'.nonlinear = r.nonlinear := by
  obtain ⟨-, rfl⟩ := register_eq_ok_iff.1 h
  rfl

theorem nonlinear?_of_registerNonlinear {unit : NonlinearUnit}
    (h : r.registerNonlinear unit = .ok r') (symbol : RawText) :
    r'.nonlinear? symbol = if symbol ∈ unit.symbols then some unit else r.nonlinear? symbol := by
  obtain ⟨-, rfl⟩ := registerNonlinear_eq_ok_iff.1 h
  exact SymbolMap.get?_insertAll _ _ _ _

theorem linear_of_registerNonlinear {unit : NonlinearUnit}
    (h : r.registerNonlinear unit = .ok r') : r'.linear = r.linear := by
  obtain ⟨-, rfl⟩ := registerNonlinear_eq_ok_iff.1 h
  rfl

/-- A multiplier that is there stays, or gives way to an equal one. -/
theorem eqv_of_register {unit : LinearUnit} (h : r.register unit = .ok r') {symbol : RawText}
    {old : Scalar} (hold : r.linear? symbol = some old) :
    ∃ new, r'.linear? symbol = some new ∧ (new = old ∨ old.eqv new = true) := by
  rw [linear?_of_register h]
  split
  · next hmem =>
    have hadmits := (register_eq_ok_iff.1 h).1 symbol hmem
    exact ⟨unit.multiplier, rfl, Or.inr ((admits_iff.1 hadmits).2 old hold)⟩
  · exact ⟨old, hold, Or.inl rfl⟩

/-- **Registering is all or nothing and changes no meaning.** A linear unit is registered exactly if
none of its symbols is nonlinear or has another multiplier; a nonlinear one if none of its symbols
stands for anything. Then its symbols stand for it, all others for what they stood for, and no
symbol has got another multiplier than an equal one. Whatever is written to a registry in place, by
registering or by inserting, a failure leaves the registry as it was. -/
theorem registration_strict (r : Registry) :
    (∀ unit : LinearUnit,
      ((∃ r', r.register unit = .ok r') ↔ ∀ symbol ∈ unit.symbols, r.nonlinear? symbol = none ∧
        ∀ old, r.linear? symbol = some old → old.eqv unit.multiplier = true) ∧
      ∀ r', r.register unit = .ok r' →
        (∀ symbol, r'.linear? symbol =
          if symbol ∈ unit.symbols then some unit.multiplier else r.linear? symbol) ∧
        r'.nonlinear = r.nonlinear ∧
        ∀ symbol old, r.linear? symbol = some old →
          ∃ new, r'.linear? symbol = some new ∧ (new = old ∨ old.eqv new = true)) ∧
    (∀ unit : NonlinearUnit,
      ((∃ r', r.registerNonlinear unit = .ok r') ↔ ∀ symbol ∈ unit.symbols,
        r.linear? symbol = none ∧ r.nonlinear? symbol = none) ∧
      ∀ r', r.registerNonlinear unit = .ok r' →
        (∀ symbol, r'.nonlinear? symbol =
          if symbol ∈ unit.symbols then some unit else r.nonlinear? symbol) ∧
        r'.linear = r.linear) ∧
    ∀ w : Write,
      (∀ r', w.apply r = .ok r' ↔ w.inPlace.on r = (.ok (), r')) ∧
      (∀ e, w.apply r = .error e ↔ w.inPlace.on r = (.error e, r)) ∧
      ∀ e after, w.inPlace.on r = (.error e, after) → after = r := by
  refine ⟨fun unit ↦ ⟨?_, fun r' h ↦ ⟨linear?_of_register h, nonlinear_of_register h,
    fun symbol old ↦ eqv_of_register h⟩⟩, fun unit ↦ ⟨?_, fun r' h ↦
    ⟨nonlinear?_of_registerNonlinear h, linear_of_registerNonlinear h⟩⟩, fun w ↦ ?_⟩
  · simp only [register_eq_ok_iff, exists_and_left, exists_eq, and_true, admits_iff]
  · simp only [registerNonlinear_eq_ok_iff, exists_and_left, exists_eq, and_true,
      contains_eq_false_iff]
  · rw [w.on_inPlace]
    rcases w.apply r with e | r'
    · simp [Write.settle]
    · simp [Write.settle]

end Metrology.Registry
