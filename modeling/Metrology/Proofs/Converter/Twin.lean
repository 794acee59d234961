import Metrology.Proofs.Converter.Call

/-!
# What a call looks at

A call looks at the registry and at the preferences of its converter, and at nothing else: two
converters that differ in their counters and remarks alone (`Converter.Twin`) answer it alike and
are left alike (`Call.run_sameBut`). So what a call does is told by a registry and preferences, and
it can be run on a converter that has done nothing yet.
-/

namespace Metrology

namespace Converter

/-- Two converters that are the same but for their counters and remarks. -/
structure Twin (c c' : Converter) : Prop where
  registry_eq : c'.registry = c.registry
  preferences_eq : c'.preferences = c.preferences

/-- Two results of using a converter that are the same but for counters and remarks. -/
def SameBut {α : Type} (result result' : α × Converter) : Prop :=
  result'.1 = result.1 ∧ Twin result.2 result'.2

variable {c c' : Converter}

/-! ### Parts of a call -/

theorem Twin.resolve (h : Twin c c') (p : Preferences) (unit : Option RawText) :
    SameBut (c.resolve p unit) (c'.resolve p unit) := by
  rw [Converter.resolve, Converter.resolve, h.registry_eq]
  split
  · exact ⟨rfl, h.registry_eq, h.preferences_eq⟩
  · split
    · exact ⟨rfl, h⟩
    · split
      · exact ⟨rfl, h⟩
      · split
        · have hregistry : c'.countParsed.registry = c.countParsed.registry := h.registry_eq
          rw [memoize, memoize, hregistry]
          split
          · exact ⟨rfl, h.registry_eq, h.preferences_eq⟩
          · exact ⟨rfl, rfl, h.preferences_eq⟩
        · exact ⟨rfl, h.registry_eq, h.preferences_eq⟩

theorem Twin.finish (h : Twin c c') (result : Except NumberError Value) :
    SameBut (c.finish result) (c'.finish result) := by
  cases result <;> exact ⟨rfl, h.registry_eq, h.preferences_eq⟩

theorem SameBut.settle {outcome outcome' : Except Failure Scalar × Converter}
    (h : SameBut outcome outcome') (direction : Direction) (loud : Bool) (symbol : RawText)
    (value : Value) :
    SameBut (settle direction loud symbol value outcome)
      (settle direction loud symbol value outcome') := by
  obtain ⟨hanswer, htwin⟩ := h
  refine ⟨?_, ?_, ?_⟩
  · rw [settle_fst, settle_fst, hanswer]
  · rw [(settle_snd _ _ _ _ _).1, (settle_snd _ _ _ _ _).1, htwin.registry_eq]
  · rw [(settle_snd _ _ _ _ _).2, (settle_snd _ _ _ _ _).2, htwin.preferences_eq]

theorem Twin.convertBy (h : Twin c c') (direction : Direction) (request : Request) (value : Value)
    (unit : Option RawText) :
    SameBut (c.convertBy direction request value unit)
      (c'.convertBy direction request value unit) := by
  have hconversion := conversion c direction request value unit
  generalize c.convertBy direction request value unit = result at hconversion ⊢
  cases hconversion with
  | idle hunit => rcases hunit with rfl | rfl <;> exact ⟨rfl, h⟩
  | nonlinear hsymbol hnonlinear =>
    rw [convertBy_nonlinear hsymbol (h.registry_eq ▸ hnonlinear)]
    have hhit : Twin c.countHit c'.countHit := ⟨h.registry_eq, h.preferences_eq⟩
    exact hhit.finish _
  | linear hsymbol hnonlinear =>
    rw [convertBy_linear hsymbol (h.registry_eq ▸ hnonlinear), h.preferences_eq]
    exact (h.resolve _ _).settle _ _ _ _

theorem Twin.convertLoudly (h : Twin c c') (value : Value) (source target : Option RawText) :
    SameBut (c.convertLoudly value source target) (c'.convertLoudly value source target) := by
  have hfirst := h.convertBy .toInternal { failLoud := some true } value source
  rw [Converter.convertLoudly, Converter.convertLoudly, toInternal, toInternal]
  generalize c.convertBy .toInternal { failLoud := some true } value source = result at hfirst ⊢
  generalize c'.convertBy .toInternal { failLoud := some true } value source = result' at hfirst ⊢
  obtain ⟨answer, after⟩ := result
  obtain ⟨answer', after'⟩ := result'
  obtain ⟨hanswer, htwin⟩ := hfirst
  obtain rfl : answer' = answer := hanswer
  cases answer' with
  | error e => exact ⟨rfl, htwin⟩
  | ok internal => exact htwin.convertBy .fromInternal { failLoud := some true } internal target

theorem Twin.convert (h : Twin c c') (failLoud : Option Bool) (value : Value)
    (source target : Option RawText) :
    SameBut (c.convert failLoud value source target) (c'.convert failLoud value source target) := by
  have hloudly := h.convertLoudly value source target
  rw [Converter.convert, Converter.convert, h.preferences_eq]
  generalize c.convertLoudly value source target = result at hloudly ⊢
  generalize c'.convertLoudly value source target = result' at hloudly ⊢
  obtain ⟨answer, after⟩ := result
  obtain ⟨answer', after'⟩ := result'
  obtain ⟨hanswer, htwin⟩ := hloudly
  obtain rfl : answer' = answer := hanswer
  split
  · exact ⟨rfl, h⟩
  · cases answer' with
    | ok result => exact ⟨rfl, htwin⟩
    | error e =>
      cases e with
      | unit cause =>
        dsimp only
        split <;> exact ⟨rfl, htwin⟩
      | _ => exact ⟨rfl, htwin⟩

theorem SameBut.map {α β : Type} {result result' : α × Converter} (h : SameBut result result')
    (f : α → β) : SameBut (result.map f id) (result'.map f id) :=
  ⟨congrArg f h.1, h.2⟩

end Converter

/-! ### Calls -/

/-- A call looks at the registry and at the preferences of the converter, and at nothing else. -/
theorem Call.run_sameBut {c c' : Converter} (h : Converter.Twin c c') (call : Call) :
    Converter.SameBut (call.run c) (call.run c') := by
  cases call with
  | single direction request value unit => exact (h.convertBy direction request value unit).map _
  | between failLoud value source target => exact (h.convert failLoud value source target).map _
  | accepts parseCompound unit =>
    rw [run, run, c.accepts_eq, c'.accepts_eq]
    exact ((h.convertBy _ _ _ unit).map _).map _
  | multiplier request unit =>
    rw [run, run, Converter.multiplier, Converter.multiplier, h.registry_eq, h.preferences_eq]
    split
    · exact ⟨rfl, h⟩
    · exact (h.resolve _ unit).map _

end Metrology
