import Metrology.CommandLine.Run
import Metrology.Proofs.Converter.Failures
import Metrology.Proofs.Expression.Balance
import Metrology.Proofs.Rendering.Base

/-!
# What is said of proper texts

Messages and remarks quote the units that they are about, in whole or in part. If a command names
proper texts only, all that it says is a proper text, what converters remark and what failures are
reported by (`speaks_perform`).

That is followed along the calls: a part of an expression that is at fault is made of the code
points of the expression (`failsProperly_evaluate`), and a failure goes with the remarks before it
through conversions, renderings and commands (`Speaks`).
-/

namespace Metrology

/-! ### Texts from texts -/

namespace RawText

theorem isWritable_append_iff {s t : RawText} :
    (s ++ t).isWritable = true ↔ s.isWritable = true ∧ t.isWritable = true := by
  rw [isWritable_append, Bool.and_eq_true]

theorem isWritable_of_mem_some {t : RawText} (h : t.isWritable = true) :
    ∀ text ∈ some t, text.isWritable = true := by
  rintro _ ⟨⟩
  exact h

/-- Proper texts with a proper one between them are a proper text. -/
theorem isWritable_join {separator : RawText} (hseparator : separator.isWritable = true)
    {parts : List RawText} (h : ∀ part ∈ parts, part.isWritable = true) :
    (join separator parts).isWritable = true := by
  have hcons : ∀ (part next : RawText) (rest : List RawText),
      join separator (part :: next :: rest) = part ++ separator ++ join separator (next :: rest) :=
    fun _ _ _ ↦ congrArg mk List.intercalate_cons_cons
  induction parts with
  | nil => rfl
  | cons part rest ih =>
    obtain ⟨hpart, hrest⟩ := List.forall_mem_cons.1 h
    cases rest with
    | nil => rwa [show join separator [part] = part from congrArg mk List.intercalate_singleton]
    | cons next rest =>
      rw [hcons, isWritable_append_iff, isWritable_append_iff]
      exact ⟨⟨hpart, hseparator⟩, ih hrest⟩

end RawText

theorem isWritable_detailText {details : List (String × RawText)}
    (h : ∀ detail ∈ details, detail.2.isWritable = true) :
    (detailText details).isWritable = true := by
  rw [detailText]
  split
  · rfl
  · have hparts : ∀ part ∈ details.map fun detail ↦ RawText.ofString detail.1 ++ "=" ++ detail.2,
        part.isWritable = true :=
      List.forall_mem_map.2 fun detail hdetail ↦ by simpa using h detail hdetail
    simpa using RawText.isWritable_join (RawText.isWritable_ofString ", ") hparts

theorem isWritable_of_mem_optionalDetail {name : String} {text : RawText}
    (h : text.isWritable = true) :
    ∀ detail ∈ optionalDetail name text, detail.2.isWritable = true := by
  rw [optionalDetail]
  split
  · exact List.forall_mem_nil _
  · exact List.forall_mem_singleton.2 h

/-! ### Messages -/

namespace UnitError

theorem isWritable_shown {unit : Option RawText} (h : ∀ text ∈ unit, text.isWritable = true) :
    (shown unit).isWritable = true ∧ (unit.getD "").isWritable = true := by
  cases unit with
  | none => exact ⟨rfl, rfl⟩
  | some text => exact ⟨h text rfl, h text rfl⟩

theorem isWritable_message_unknown {unit : Option RawText}
    (h : ∀ text ∈ unit, text.isWritable = true) : (unknown unit).message.isWritable = true := by
  rw [message, RawText.isWritable_append_iff]
  exact ⟨by simpa [summary] using (isWritable_shown h).1,
    isWritable_detailText (isWritable_of_mem_optionalDetail (isWritable_shown h).2)⟩

theorem isWritable_message_unresolved (fault : Fault) {part expression : RawText}
    (hpart : part.isWritable = true) (hexpression : expression.isWritable = true) :
    (unresolved fault part expression).message.isWritable = true := by
  rw [message, RawText.isWritable_append_iff]
  refine ⟨?_, isWritable_detailText (List.forall_mem_append.2
    ⟨isWritable_of_mem_optionalDetail hexpression, by simp⟩)⟩
  cases fault <;> simp [summary, Fault.message, hpart]

theorem isWritable_message_between {source target : Option RawText} {cause : UnitError}
    (hsource : ∀ text ∈ source, text.isWritable = true)
    (htarget : ∀ text ∈ target, text.isWritable = true)
    (h : cause.message.isWritable = true) :
    (between source target cause).message.isWritable = true := by
  rw [message, RawText.isWritable_append_iff] at h ⊢
  refine ⟨?_, isWritable_detailText (List.forall_mem_append.2
    ⟨isWritable_of_mem_optionalDetail (isWritable_shown hsource).2,
      isWritable_of_mem_optionalDetail (isWritable_shown htarget).2⟩)⟩
  simp [summary, h.1, h.2, (isWritable_shown hsource).1, (isWritable_shown htarget).1]

end UnitError

theorem RenderingError.isWritable_message {e : RenderingError}
    (h : e.subject.isWritable = true) : e.message.isWritable = true := by
  rw [message, RawText.isWritable_append_iff]
  refine ⟨?_, isWritable_detailText (List.forall_mem_singleton.2 h)⟩
  cases e with
  | compoundUnit unit | nonlinearUnit unit => simpa [summary, subject] using h
  | _ => simp [summary]

/-! ### Failures -/

/-- What a failure is reported by is a proper text. -/
def Failure.IsProper (e : Failure) : Prop := ∀ text ∈ e.ownMessage?, text.isWritable = true

/-- Whatever fails, it is reported by a proper text. -/
def FailsProperly {α : Type} (result : Except Failure α) : Prop :=
  ∀ e, result = .error e → e.IsProper

namespace FailsProperly

variable {α β : Type}

theorem ok (a : α) : FailsProperly (.ok a) := fun _ h ↦ nomatch h

theorem error {e : Failure} (h : e.IsProper) : FailsProperly (α := α) (.error e) :=
  fun _ herror ↦ Except.error.inj herror ▸ h

theorem of_not_own {e : Failure} (h : e.ownMessage? = none) :
    FailsProperly (α := α) (.error e) := by
  refine error ?_
  rw [Failure.IsProper, h]
  exact fun _ hmem ↦ nomatch hmem

theorem unit {cause : UnitError} (h : cause.message.isWritable = true) :
    FailsProperly (α := α) (.error (.unit cause)) := by
  refine error ?_
  rintro _ ⟨⟩
  exact h

theorem rendering {cause : RenderingError} (h : cause.subject.isWritable = true) :
    FailsProperly (α := α) (.error (.rendering cause)) := by
  refine error ?_
  rintro _ ⟨⟩
  exact cause.isWritable_message h

theorem bind {result : Except Failure α} (h : FailsProperly result)
    {next : α → Except Failure β} (hnext : ∀ a, FailsProperly (next a)) :
    FailsProperly (result >>= next) := by
  cases result with
  | ok a => exact hnext a
  | error e => exact error (h e rfl)

theorem map {result : Except Failure α} (h : FailsProperly result) (f : α → β) :
    FailsProperly (result.map f) :=
  h.bind fun a ↦ ok (f a)

/-- A failure of arithmetic is none of the library's own. -/
theorem arithmetic (result : Except NumberError α) :
    FailsProperly (Rendering.arithmetic result) := by
  cases result with
  | ok a => exact ok a
  | error e => exact of_not_own rfl

end FailsProperly

/-! ### Expressions -/

namespace Expression

variable {r : Registry} {expression : RawText} {part : List CodePoint}
  (hexpression : expression.isWritable = true) (hpart : (⟨part⟩ : RawText).isWritable = true)

include hexpression

theorem failsProperly_unresolved {α : Type} (fault : Fault) {text : RawText}
    (htext : text.isWritable = true) :
    FailsProperly (α := α) (.error (.unit (.unresolved fault text expression))) :=
  .unit (UnitError.isWritable_message_unresolved fault htext hexpression)

include hpart

theorem failsProperly_operate (operator : Operator) (x y : Scalar) :
    FailsProperly (operate expression operator part x y) := by
  rw [operate]
  split
  · exact failsProperly_unresolved hexpression _ hpart
  · split
    · exact .ok _
    · exact .of_not_own rfl
  · split
    · exact .ok _
    · exact failsProperly_unresolved hexpression _ hpart

theorem failsProperly_operand : FailsProperly (operand r expression part) := by
  rw [operand]
  split
  · exact failsProperly_unresolved hexpression _ rfl
  · rw [leaf]
    split
    · exact .ok _
    · split
      · exact .ok _
      · exact failsProperly_unresolved hexpression _ hpart
    · split <;> exact failsProperly_unresolved hexpression _ hpart

/-- A part of a proper expression that is at fault is a proper text. -/
theorem failsProperly_evaluatePart (levels : Nat) :
    FailsProperly (evaluatePart r expression levels part) := by
  induction levels generalizing part with
  | zero =>
    rw [evaluatePart_zero]
    exact failsProperly_unresolved hexpression _ hexpression
  | succ levels ih =>
    rcases hgroup : Parts.inside? part with _ | inside
    · rcases hbalanced : Parts.balanced part with _ | _
      · rw [evaluatePart_of_not_balanced hbalanced]
        exact failsProperly_unresolved hexpression _ hpart
      · rcases hsplit : Parts.split? part with _ | ⟨operator, left, right⟩
        · rw [evaluatePart_of_leaf hgroup hbalanced hsplit]
          exact failsProperly_operand hexpression hpart
        · rw [evaluatePart_of_split? hgroup hbalanced hsplit]
          obtain ⟨rfl, -⟩ := Parts.eq_append_of_split? (Parts.balanced_iff.1 hbalanced) hsplit
          obtain ⟨hleft, hrest⟩ := RawText.isWritable_append_iff.1
            (show (⟨left⟩ ++ (⟨[operator.sign]⟩ ++ ⟨right⟩) : RawText).isWritable = true from hpart)
          exact (ih hleft).bind fun x ↦ (ih (RawText.isWritable_append_iff.1 hrest).2).bind fun y ↦
            failsProperly_operate hexpression hpart operator x y
    · rw [evaluatePart_of_inside? hgroup]
      obtain ⟨rfl, -⟩ := Parts.inside?_eq_some_iff.1 hgroup
      obtain ⟨hbody, -⟩ := RawText.isWritable_append_iff.1
        (show (⟨[.char '(']⟩ ++ ⟨inside⟩ ++ ⟨[.char ')']⟩ : RawText).isWritable = true from hpart)
      exact ih (RawText.isWritable_append_iff.1 hbody).2

omit hpart

theorem failsProperly_evaluate : FailsProperly (evaluate r expression) := by
  refine (failsProperly_evaluatePart hexpression hexpression _).bind fun multiplier ↦ ?_
  split
  · exact failsProperly_unresolved hexpression _ hexpression
  · exact .ok _

end Expression

theorem Registry.failsProperly_insertScalar (r : Registry) (symbol : RawText)
    (multiplier : Scalar) : FailsProperly (r.insertScalar symbol multiplier) := by
  refine (FailsProperly.arithmetic multiplier.toDouble).bind fun x ↦ ?_
  cases r.insertLinear symbol x with
  | ok r' => exact .ok r'
  | error e => exact .of_not_own rfl

/-! ### Conversions -/

namespace Converter

/-- All that a converter has remarked is a proper text. -/
def HasProperRemarks (c : Converter) : Prop := ∀ remark ∈ c.remarks, remark.isWritable = true

/-- All that is said in an outcome is a proper text. -/
structure Speaks {α : Type} (outcome : Except Failure α × Converter) : Prop where
  remarks : outcome.2.HasProperRemarks
  failsProperly : FailsProperly outcome.1

/-- A failure says the same whatever it is the failure to find. -/
theorem Speaks.error {α β : Type} {e : Failure} {c : Converter}
    (h : Speaks (α := α) (.error e, c)) : Speaks (α := β) (.error e, c) :=
  ⟨h.remarks, .error (h.failsProperly e rfl)⟩

variable {c : Converter}

theorem HasProperRemarks.remark (hc : c.HasProperRemarks) {text : RawText}
    (h : text.isWritable = true) : (c.remark text).HasProperRemarks :=
  List.forall_mem_append.2 ⟨hc, List.forall_mem_singleton.2 h⟩

theorem speaks_finish (hc : c.HasProperRemarks) (result : Except NumberError Value) :
    Speaks (c.finish result) := by
  cases result with
  | ok value => exact ⟨hc, .ok value⟩
  | error e => exact ⟨hc, .of_not_own rfl⟩

theorem speaks_resolve (hc : c.HasProperRemarks) (p : Preferences) {unit : Option RawText}
    (hunit : ∀ text ∈ unit, text.isWritable = true) : Speaks (c.resolve p unit) := by
  have hresolution := resolution c p unit
  generalize c.resolve p unit = outcome at hresolution ⊢
  cases hresolution with
  | registered | parsed => exact ⟨hc, .ok _⟩
  | unknown => exact ⟨hc, .unit (UnitError.isWritable_message_unknown hunit)⟩
  | failed _ _ hvalue =>
    exact ⟨hc, hvalue ▸ Expression.failsProperly_evaluate (UnitError.isWritable_shown hunit).2⟩
  | refused _ _ _ _ hinsert =>
    exact ⟨hc, .error (c.registry.failsProperly_insertScalar _ _ _ hinsert)⟩
  | @memoized unit =>
    exact ⟨hc.remark (by simpa using hunit unit rfl), .ok _⟩

theorem speaks_settle (direction : Direction) (loud : Bool) {symbol : RawText}
    (hsymbol : symbol.isWritable = true) (value : Value)
    {outcome : Except Failure Scalar × Converter} (h : Speaks outcome) :
    Speaks (settle direction loud symbol value outcome) := by
  obtain ⟨e | multiplier, after⟩ := outcome
  · cases e with
    | unit cause =>
      show Speaks (after.refuse loud symbol cause value)
      rw [refuse]
      split
      · exact ⟨h.remarks, .error (h.failsProperly _ rfl)⟩
      · have hmessage := h.failsProperly _ rfl _ rfl
        exact ⟨HasProperRemarks.remark (c := after.countError) h.remarks
          (by simp [hmessage, hsymbol]), .ok _⟩
    | _ => exact ⟨h.remarks, .error (h.failsProperly _ rfl)⟩
  · exact speaks_finish h.remarks _

theorem speaks_convertBy (hc : c.HasProperRemarks) (direction : Direction) (request : Request)
    (value : Value) {unit : Option RawText} (hunit : ∀ text ∈ unit, text.isWritable = true) :
    Speaks (c.convertBy direction request value unit) := by
  have hconversion := c.conversion direction request value unit
  generalize c.convertBy direction request value unit = outcome at hconversion ⊢
  cases hconversion with
  | idle => exact ⟨hc, .ok value⟩
  | nonlinear => exact speaks_finish (c := c.countHit) hc _
  | linear => exact speaks_settle direction _ (hunit _ rfl) value (speaks_resolve hc _ hunit)

theorem speaks_convertLoudly (hc : c.HasProperRemarks) (value : Value)
    {source target : Option RawText} (hsource : ∀ text ∈ source, text.isWritable = true)
    (htarget : ∀ text ∈ target, text.isWritable = true) :
    Speaks (c.convertLoudly value source target) := by
  have hfirst := speaks_convertBy hc .toInternal { failLoud := some true } value hsource
  have hrelay := c.relay value source target
  generalize c.convertLoudly value source target = outcome at hrelay ⊢
  cases hrelay with
  | stopped heq => exact heq ▸ hfirst
  | passed heq =>
    rw [heq] at hfirst
    exact speaks_convertBy hfirst.remarks _ _ _ htarget

theorem speaks_convert (hc : c.HasProperRemarks) (failLoud : Option Bool) (value : Value)
    {source target : Option RawText} (hsource : ∀ text ∈ source, text.isWritable = true)
    (htarget : ∀ text ∈ target, text.isWritable = true) :
    Speaks (c.convert failLoud value source target) := by
  have hboth := speaks_convertLoudly hc value hsource htarget
  have hexchange := c.exchange failLoud value source target
  generalize c.convert failLoud value source target = outcome at hexchange ⊢
  cases hexchange with
  | same => exact ⟨hc, .ok value⟩
  | settled _ hloudly => exact hloudly ▸ hboth
  | refused _ hloudly =>
    rw [hloudly] at hboth
    refine ⟨hboth.remarks, ?_⟩
    dsimp only
    split
    · exact .unit (UnitError.isWritable_message_between hsource htarget
        (hboth.failsProperly _ rfl _ rfl))
    · exact .ok _

end Converter

/-! ### Renderings -/

namespace Rendering

open Converter

variable {c : Converter}

theorem failsProperly_roundSignificant (x : Scalar) (digits : Int) :
    FailsProperly (roundSignificant x digits) := by
  rw [roundSignificant]
  split
  · unfold tooFewDigits
    -- the bound on whole numbers that can be written is better not computed
    generalize Text.wholeNumber digits = text
    cases text with
    | ok text => exact .rendering (RawText.isWritable_ofString _)
    | error e => exact .of_not_own rfl
  · exact .arithmetic _

theorem failsProperly_plain (x : Scalar) (digits : Int) : FailsProperly (plain x digits) :=
  (failsProperly_roundSignificant x digits).bind fun _ ↦ .arithmetic _

theorem failsProperly_scientific (x : Scalar) (digits : Int) (unicode : Bool) :
    FailsProperly (scientific x digits unicode) :=
  (failsProperly_roundSignificant x digits).bind fun _ ↦ .arithmetic _

theorem failsProperly_si (x : Scalar) (unit : RawText) (digits : Int) (unicode : Bool) :
    FailsProperly (si x unit digits unicode) := by
  refine (failsProperly_roundSignificant x digits).bind fun rounded ↦ ?_
  split
  · exact .ok _
  · exact (FailsProperly.arithmetic _).bind fun _ ↦ (FailsProperly.arithmetic _).bind fun _ ↦
      (failsProperly_plain _ digits).bind fun _ ↦ .ok _

theorem failsProperly_named (x : Scalar) (digits : Int) : FailsProperly (named x digits) := by
  refine (failsProperly_roundSignificant x digits).bind fun rounded ↦ ?_
  split
  · exact failsProperly_plain _ digits
  · refine (FailsProperly.arithmetic _).bind fun exponent ↦ ?_
    dsimp only
    split
    · exact failsProperly_scientific _ digits _
    · exact (FailsProperly.arithmetic _).bind fun _ ↦ (failsProperly_plain _ digits).bind fun _ ↦
        .ok _

theorem failsProperly_withUnit (style : Style) (digits : Int) (unicode : Bool) (unit : RawText)
    (x : Double) : FailsProperly (withUnit style digits unicode unit x) := by
  cases style with
  | si => exact failsProperly_si _ unit digits unicode
  | plain => exact (failsProperly_plain _ digits).map _
  | scientific => exact (failsProperly_scientific _ digits unicode).map _
  | named => exact (failsProperly_named _ digits).map _

/-- The unit that a quantity is shown in is the unit itself or the end of it. -/
theorem isWritable_of_shownUnit {r : Registry} {style : Style} {unit shown : RawText}
    (hunit : unit.isWritable = true) (h : shownUnit r style unit = .ok shown) :
    shown.isWritable = true := by
  rcases eq_or_isPrefixed_of_shownUnit h with rfl | ⟨entry, -, rfl, -⟩
  · exact hunit
  · exact (RawText.isWritable_append_iff.1 hunit).2

theorem speaks_external (hc : c.HasProperRemarks) (value : Value) {unit : RawText}
    (hunit : unit.isWritable = true) : Speaks (external c value unit) := by
  have hspeaks := speaks_convertBy hc .fromInternal {} value (RawText.isWritable_of_mem_some hunit)
  rw [external, fromInternal]
  generalize c.convertBy .fromInternal {} value (some unit) = outcome at hspeaks ⊢
  obtain ⟨e | result, after⟩ := outcome
  · exact hspeaks.error
  · refine ⟨hspeaks.remarks, ?_⟩
    show FailsProperly (doubleOf result)
    rw [doubleOf]
    split
    · exact .arithmetic _
    · exact .of_not_own rfl

theorem speaks_quantity (hc : c.HasProperRemarks) (value : Value) {unit : RawText}
    (hunit : unit.isWritable = true) (style : Style) (digits : Int) (unicode : Bool) :
    Speaks (quantity c value unit style digits unicode) := by
  rw [quantity, ← shownUnit]
  rcases hshown : shownUnit c.registry style unit with cause | shown
  · exact ⟨hc, .rendering ((subject_of_shownUnit hshown).symm ▸ hunit)⟩
  · have hspeaks := speaks_external hc value (isWritable_of_shownUnit hunit hshown)
    dsimp only
    generalize external c value shown = outcome at hspeaks ⊢
    obtain ⟨e | x, after⟩ := outcome
    · exact hspeaks.error
    · exact ⟨hspeaks.remarks, failsProperly_withUnit style digits unicode shown x⟩

variable {unit : Option RawText}

theorem speaks_degreesOf (hc : c.HasProperRemarks) (value : Value)
    (hunit : ∀ text ∈ unit, text.isWritable = true) : Speaks (degreesOf c value unit) := by
  have hspeaks := speaks_convertBy hc .toInternal {} value hunit
  rw [degreesOf, toInternal]
  generalize c.convertBy .toInternal {} value unit = outcome at hspeaks ⊢
  obtain ⟨e | internal, after⟩ := outcome
  · exact hspeaks.error
  · have hdegrees := speaks_external hspeaks.remarks internal (RawText.isWritable_ofString "deg")
    dsimp only
    generalize external after internal "deg" = outcome at hdegrees ⊢
    obtain ⟨e | degrees, after⟩ := outcome
    · exact hdegrees.error
    · dsimp only
      split
      · exact ⟨hdegrees.remarks, .ok _⟩
      · exact ⟨hdegrees.remarks, .rendering (RawText.isWritable_ofString _)⟩

theorem speaks_latitude (hc : c.HasProperRemarks) (format : AngleFormat) (value : Value)
    (hunit : ∀ text ∈ unit, text.isWritable = true) : Speaks (latitude c format value unit) := by
  have hspeaks := speaks_degreesOf hc value hunit
  rw [latitude]
  generalize degreesOf c value unit = outcome at hspeaks ⊢
  obtain ⟨e | degrees, after⟩ := outcome
  · exact hspeaks.error
  · refine ⟨hspeaks.remarks, ?_⟩
    dsimp only
    by_cases hbeyond : maxLatitude.lt degrees.abs = true
    · rw [latitudeText, if_pos hbeyond]
      exact .rendering (RawText.isWritable_ofString _)
    · rw [latitudeText, if_neg hbeyond]
      exact .arithmetic _

theorem speaks_longitude (hc : c.HasProperRemarks) (format : AngleFormat) (value : Value)
    (hunit : ∀ text ∈ unit, text.isWritable = true) : Speaks (longitude c format value unit) := by
  have hspeaks := speaks_degreesOf hc value hunit
  rw [longitude]
  generalize degreesOf c value unit = outcome at hspeaks ⊢
  obtain ⟨e | degrees, after⟩ := outcome
  · exact hspeaks.error
  · exact ⟨hspeaks.remarks, .arithmetic _⟩

theorem speaks_position (hc : c.HasProperRemarks) (format : AngleFormat) (lat lon : Value)
    (hunit : ∀ text ∈ unit, text.isWritable = true) :
    Speaks (position c format lat lon unit) := by
  have hnorth := speaks_latitude hc format lat hunit
  rw [position]
  generalize latitude c format lat unit = outcome at hnorth ⊢
  obtain ⟨e | north, after⟩ := outcome
  · exact hnorth.error
  · have heast := speaks_longitude hnorth.remarks format lon hunit
    dsimp only
    generalize longitude after format lon unit = outcome at heast ⊢
    obtain ⟨e | east, after⟩ := outcome
    · exact heast.error
    · exact ⟨heast.remarks, .ok _⟩

end Rendering

/-! ### Commands -/

namespace CommandLine

open Converter

variable {c : Converter}

/-- The line of a unit can be written if the unit can, and what is wrong with it. -/
theorem Verdict.isWritable_line {v : Verdict} (hunit : v.unit.isWritable = true)
    (h : ∀ cause, v.answer = .error cause → cause.message.isWritable = true) :
    v.line.isWritable = true := by
  obtain ⟨unit, answer⟩ := v
  cases answer with
  | ok value => simpa [line] using hunit
  | error cause => simpa [line, h cause rfl] using hunit

theorem speaks_judge (hc : c.HasProperRemarks) (noParse : Bool) {units : List RawText}
    (h : ∀ unit ∈ units, unit.isWritable = true) :
    (judge noParse c units).2.2.HasProperRemarks ∧
      ∀ failure ∈ (judge noParse c units).2.1, failure.IsProper := by
  induction units generalizing c with
  | nil => exact ⟨hc, fun _ hmem ↦ nomatch hmem⟩
  | cons unit units ih =>
    obtain ⟨hunit, hunits⟩ := List.forall_mem_cons.1 h
    have hspeaks := speaks_convertBy hc .toInternal (checkRequest noParse) (.ofDouble 1)
      (RawText.isWritable_of_mem_some hunit)
    rw [judge, toInternal]
    generalize c.convertBy .toInternal (checkRequest noParse) (.ofDouble 1) (some unit) = outcome
      at hspeaks ⊢
    obtain ⟨answer, after⟩ := outcome
    have hverdict : FailsProperly (verdictOf unit answer) := by
      have hwritten : ∀ v : Verdict, FailsProperly v.written := by
        intro v
        rw [Verdict.written]
        split
        · exact .ok v
        · exact .of_not_own rfl
      cases answer with
      | ok value => exact hwritten _
      | error e =>
        cases e with
        | unit cause => exact hwritten _
        | _ => exact .error (hspeaks.failsProperly _ rfl)
    dsimp only
    generalize verdictOf unit answer = verdict at hverdict ⊢
    cases verdict with
    | ok v => exact ih hspeaks.remarks hunits
    | error failure => exact ⟨hspeaks.remarks, fun _ hmem ↦ Option.some.inj hmem ▸ hverdict _ rfl⟩

/-- The units that a command names. -/
def Command.units : Command → List RawText
  | internal _ _ unit _ _ | format _ unit _ _ _ | position _ _ unit _ _ => [unit]
  | convert _ source target => [source, target]
  | check units _ => units

theorem Deed.failsProperly_ofText {answer : Except Failure RawText} (h : FailsProperly answer) :
    FailsProperly (ofText answer).answer := by
  cases answer with
  | error e => exact .error (h e rfl)
  | ok text =>
    rw [ofText]
    split
    · exact .ok 0
    · exact .of_not_own rfl

/-- **A command that names proper texts says only proper texts.** -/
theorem speaks_perform (settings : Settings) (hc : c.HasProperRemarks) {command : Command}
    (h : ∀ unit ∈ command.units, unit.isWritable = true) :
    (command.perform settings c).2.HasProperRemarks ∧
      FailsProperly (command.perform settings c).1.answer := by
  cases command with
  | internal direction value unit noParse quiet =>
    have hspeaks := speaks_convertBy hc direction
      { parseCompound := some !noParse, failLoud := some !quiet } (.ofDouble value)
      (RawText.isWritable_of_mem_some (h unit (List.mem_singleton_self unit)))
    show (performInternal c direction value unit noParse quiet).2.HasProperRemarks ∧
      FailsProperly (performInternal c direction value unit noParse quiet).1.answer
    rw [performInternal]
    generalize c.convertBy direction _ (.ofDouble value) (some unit) = outcome at hspeaks ⊢
    obtain ⟨e | result, after⟩ := outcome
    · exact ⟨hspeaks.remarks, .error (hspeaks.failsProperly e rfl)⟩
    · exact ⟨hspeaks.remarks, .ok 0⟩
  | convert value source target =>
    have hspeaks := speaks_convert hc none (.ofDouble value)
      (RawText.isWritable_of_mem_some (h source (by simp [Command.units])))
      (RawText.isWritable_of_mem_some (h target (by simp [Command.units])))
    exact ⟨hspeaks.remarks, Deed.failsProperly_ofText (hspeaks.failsProperly.map _)⟩
  | check units noParse =>
    have hunits : ∀ unit ∈ units, unit.isWritable = true := h
    have hspeaks := speaks_judge hc noParse hunits
    show (performCheck c units noParse).2.HasProperRemarks ∧
      FailsProperly (performCheck c units noParse).1.answer
    rw [performCheck]
    generalize judge noParse c units = outcome at hspeaks ⊢
    obtain ⟨verdicts, failure | failure, after⟩ := outcome
    · exact ⟨hspeaks.1, .ok _⟩
    · exact ⟨hspeaks.1, .error (hspeaks.2 failure rfl)⟩
  | format value unit style digits unicode =>
    have hspeaks := Rendering.speaks_quantity hc (.ofDouble value)
      (h unit (List.mem_singleton_self unit)) style (digits.getD settings.significantDigits) unicode
    exact ⟨hspeaks.remarks, Deed.failsProperly_ofText hspeaks.failsProperly⟩
  | position latitude longitude unit decimal places =>
    have hspeaks := Rendering.speaks_position hc { decimal, places } (.ofDouble latitude)
      (.ofDouble longitude) (RawText.isWritable_of_mem_some (h unit (List.mem_singleton_self unit)))
    exact ⟨hspeaks.remarks, Deed.failsProperly_ofText (hspeaks.failsProperly.map _)⟩

end CommandLine

end Metrology
