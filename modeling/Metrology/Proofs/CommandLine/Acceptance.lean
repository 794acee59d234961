import Metrology.Proofs.CommandLine.Check
import Metrology.Proofs.Converter.Acceptance

/-!
# Which units the commands accept

The settings of a call say whether expressions are parsed, and its converter behaves accordingly
unless a command asks for something else. Conversions between two units and quantities that are
rendered ask for nothing, so they accept a unit as the settings have it (`converts_convert`,
`converts_format`). Conversions to and from internal units and checks ask for parsing unless an
option rules it out, so what the settings say makes no difference to them (`converts_internal`,
`accepts_check`).

How a call ends is read off what its command says, a text or a failure (`Outcome.Ends`); if the
command converts a double, that is decided by whether the units are accepted (`Outcome.Converts`).
That is so whenever what the command says can be recorded (`Command.IsRecordable`).
-/

namespace Metrology

/-! ### Quantities -/

namespace Rendering

open Registry

variable {c : Converter} {unit shown : RawText} {style : Style}

/-- A quantity is converted out of internal units as the converter prefers. -/
theorem answered_external (hc : Settings.WellBuilt c.registry) (x : Double) (unit : RawText) :
    Answered (c.registry.Accepts c.preferences.parseCompound unit) c.preferences.failLoud
      (external c (.ofDouble x) unit).1 := by
  obtain ⟨answer, hanswer, heq⟩ := Converter.answered_convertBy hc .fromInternal {} x unit
  have hexternal : (external c (.ofDouble x) unit).1 = answer := by
    rw [external, Converter.fromInternal]
    generalize c.convertBy .fromInternal {} (.ofDouble x) (some unit) = result at heq ⊢
    obtain ⟨_, after⟩ := result
    obtain rfl := heq
    cases answer <;> rfl
  rw [hexternal]
  exact hanswer

/-- The unit that is shown is accepted if the unit is: both are registered, or they are the same. -/
theorem accepts_iff_of_shownUnit {r : Registry} (h : shownUnit r style unit = .ok shown)
    (parse : Bool) : r.Accepts parse shown ↔ r.Accepts parse unit := by
  rcases eq_or_isPrefixed_of_shownUnit h with rfl | ⟨-, -, -, m, b, hm, hb, -⟩
  · rfl
  · exact iff_of_true (accepts_of_contains (contains_of_linear? hb))
      (accepts_of_contains (contains_of_linear? hm))

/-- A quantity is refused its unit by the style, or else by the converter. -/
theorem quantity_fst (c : Converter) (value : Value) (unit : RawText) (style : Style) (digits : Int)
    (unicode : Bool) :
    (quantity c value unit style digits unicode).1 =
      match shownUnit c.registry style unit with
      | .error cause => .error (.rendering cause)
      | .ok shown => (external c value shown).1 >>= withUnit style digits unicode shown := by
  rw [quantity, ← shownUnit]
  rcases shownUnit c.registry style unit with cause | shown
  · rfl
  · rcases hexternal : external c value shown with ⟨e | x, after⟩ <;> simp only [hexternal] <;> rfl

end Rendering

namespace CommandLine

open LogTree

/-! ### Ends of calls -/

/-- How a call ends that has a text to show or a failure. A failure of the library's own is
reported. -/
inductive Outcome.Ends (o : Outcome) : Except Failure RawText → Prop where
  | shown {text : RawText} (hwritable : text.isWritable = true) (hending : o.ending = .exit 0)
      (hout : o.out = [Text.dropSequences text]) : o.Ends (.ok text)
  | unwritable {text : RawText} (hwritable : text.isWritable = false)
      (hending : o.ending = .escape .unwritableText) (hout : o.out = []) : o.Ends (.ok text)
  | reported {failure : Failure} {message : RawText} (hown : failure.ownMessage? = some message)
      (hending : o.ending = .report message) (hout : o.out = []) : o.Ends (.error failure)
  | escaped {failure : Failure} (hown : failure.ownMessage? = none)
      (hending : o.ending = .escape failure) (hout : o.out = []) : o.Ends (.error failure)

/-- If all texts can be written the exit code is zero just if there is a text. -/
theorem Outcome.Ends.exitCode_eq_zero_iff {o : Outcome} {answer : Except Failure RawText}
    (h : o.Ends answer) (htext : ∀ text, answer = .ok text → text.isWritable = true) :
    o.exitCode = 0 ↔ answer.isOk = true := by
  rw [Outcome.exitCode]
  cases h with
  | shown _ hending => exact iff_of_true (hending ▸ rfl) rfl
  | unwritable hwritable => exact absurd ((htext _ rfl).symm.trans hwritable) (by simp)
  | reported _ hending | escaped _ hending =>
    exact iff_of_false (by rw [hending]; exact one_ne_zero) Bool.false_ne_true

/-- A deed says a text, if it can be written, or it has a failure and says nothing. -/
inductive Deed.Says (deed : Deed) : Except Failure RawText → Prop where
  | text {text : RawText} (hwritable : text.isWritable = true) (hlines : deed.lines = [text])
      (hanswer : deed.answer = .ok 0) : deed.Says (.ok text)
  | unwritable {text : RawText} (hwritable : text.isWritable = false) (hlines : deed.lines = [])
      (hanswer : deed.answer = .error .unwritableText) : deed.Says (.ok text)
  | failure {failure : Failure} (hlines : deed.lines = [])
      (hanswer : deed.answer = .error failure) : deed.Says (.error failure)

theorem Deed.says_ofText (answer : Except Failure RawText) : (ofText answer).Says answer := by
  cases answer with
  | error failure => exact .failure rfl rfl
  | ok text =>
    rcases hwritable : text.isWritable with _ | _
    · rw [ofText, hwritable]
      exact .unwritable hwritable rfl rfl
    · rw [ofText, hwritable]
      exact .text hwritable rfl rfl

/-- A call that leaves the report of a deed ends as the deed says. -/
theorem Deed.Says.ends {deed : Deed} {answer : Except Failure RawText} (h : deed.Says answer)
    {logs : LogTree} {moment : Moment} {o : Outcome} (hout : o.out = (report logs moment deed).out)
    (hending : o.ending = (report logs moment deed).ending) : o.Ends answer := by
  rw [report] at hout hending
  cases h with
  | text hwritable hlines hanswer =>
    rw [hanswer, hlines] at hout
    rw [hanswer] at hending
    exact .shown hwritable hending hout
  | unwritable hwritable hlines hanswer =>
    rw [hanswer, hlines] at hout
    rw [hanswer] at hending
    exact .unwritable hwritable hending hout
  | failure hlines hanswer =>
    rw [hanswer, hlines] at hout
    rw [hanswer] at hending
    dsimp only at hout hending
    split at hending
    · next hown => exact .escaped hown hending (by rw [hout, hown]; rfl)
    · next hown => exact .reported hown hending (by rw [hout, hown]; rfl)

/-! ### Calls -/

/-- The call with another command. -/
def Invocation.asking (i : Invocation) (command : Command) : Invocation :=
  { i with request := .run command }

variable {i : Invocation} {host : Host} {moment : Moment} {settings : Settings} {logs : LogTree}
  {r : Registry}

/-- A call ends as its command says. -/
theorem ends_of_says (hsettings : i.settings host = .ok settings)
    (hlog : Invocation.openLog settings host moment = (.ok (), logs))
    (hregistry : settings.buildRegistry none = .ok r) {command : Command}
    (hrecordable : command.IsRecordable logs) {answer : Except Failure RawText}
    (h : (command.perform settings
      { registry := r, preferences := settings.preferences }).1.Says answer) :
    ((i.asking command).run host moment).Ends answer := by
  have hasking : (i.asking command).settings host = .ok settings := hsettings
  obtain ⟨hout, hending⟩ := run_of_isRecordable hasking hlog hregistry rfl hrecordable
  exact h.ends hout hending

/-- A call ends with what becomes of a double, rendered, and its units are accepted or not. -/
def Outcome.Converts (o : Outcome) (accepted : Prop) (loud : Bool)
    (render : Double → Except Failure RawText) : Prop :=
  ∃ answer, Answered accepted loud answer ∧ o.Ends (answer >>= render)

/-- A loud call succeeds exactly if its units are accepted, if all doubles can be rendered. -/
theorem Outcome.Converts.exitCode_eq_zero_iff {o : Outcome} {accepted : Prop}
    {text : Double → String} (h : o.Converts accepted true fun x ↦ .ok (text x)) :
    o.exitCode = 0 ↔ accepted := by
  obtain ⟨answer, hanswer, hends⟩ := h
  rw [← hanswer.isOk_iff]
  cases answer with
  | ok x =>
    refine hends.exitCode_eq_zero_iff fun shown hshown ↦ ?_
    rw [← Except.ok.inj hshown, RawText.isWritable_ofString]
  | error e => exact hends.exitCode_eq_zero_iff fun _ hshown ↦ nomatch hshown

theorem says_performInternal (c : Converter) (direction : Direction) (x : Double) (unit : RawText)
    (noParse quiet : Bool) :
    (performInternal c direction x unit noParse quiet).1.Says
      ((c.convertBy direction { parseCompound := some !noParse, failLoud := some !quiet }
        (.ofDouble x) (some unit)).1.map fun value ↦ .ofString (valueText value)) := by
  rw [performInternal]
  split
  · next h =>
    rw [h]
    exact .text (RawText.isWritable_ofString _) rfl rfl
  · next h =>
    rw [h]
    exact .failure rfl rfl

theorem fst_perform_convert (settings : Settings) (c : Converter) (x : Double)
    (source target : RawText) :
    ((Command.convert x source target).perform settings c).1 =
      .ofText ((c.convert none (.ofDouble x) (some source) (some target)).1.map
        fun value ↦ .ofString (valueText value)) :=
  rfl

theorem fst_perform_format (settings : Settings) (c : Converter) (x : Double) (unit : RawText)
    (style : Style) (digits : Option Int) (unicode : Bool) :
    ((Command.format x unit style digits unicode).perform settings c).1 =
      .ofText (Rendering.quantity c (.ofDouble x) unit style
        (digits.getD settings.significantDigits) unicode).1 :=
  rfl

/-- A verdict is that a unit is accepted, or not. -/
theorem cause?_eq_none_iff (hr : Settings.WellBuilt r) {noParse : Bool} {v : Verdict}
    (h : r.judgement (!noParse) v.unit = v.answer.mapError Failure.unit) :
    v.cause? = none ↔ r.Accepts (!noParse) v.unit := by
  obtain ⟨unit, verdict⟩ := v
  obtain ⟨answer, hanswer, heq⟩ := Converter.answered_convertBy (c := { registry := r }) hr
    .toInternal (checkRequest noParse) 1 unit
  have haccepts : answer.isOk = true ↔ r.Accepts (!noParse) unit := hanswer.isOk_iff
  have hsame : verdict.mapError Failure.unit = answer.map Value.ofDouble :=
    h.symm.trans ((toInternal_fst (c := { registry := r }) hr.valid noParse unit).symm.trans heq)
  rw [← haccepts]
  cases verdict with
  | ok value =>
    cases answer with
    | ok x => exact iff_of_true rfl rfl
    | error e => exact nomatch hsame
  | error cause =>
    cases answer with
    | ok x => exact nomatch hsame
    | error e => exact iff_of_false (by simp [Verdict.cause?]) Bool.false_ne_true

section

variable (hsettings : i.settings host = .ok settings)
  (hlog : Invocation.openLog settings host moment = (.ok (), logs))
  (hregistry : settings.buildRegistry none = .ok r)

include hsettings hlog hregistry

/-- A conversion to or from internal units parses unless it is told not to, whatever the settings
say. -/
theorem converts_internal (direction : Direction) (x : Double) (unit : RawText)
    (noParse quiet : Bool)
    (h : (Command.internal direction x unit noParse quiet).IsRecordable logs) :
    ((i.asking (.internal direction x unit noParse quiet)).run host moment).Converts
      (r.Accepts (!noParse) unit) (!quiet) fun x ↦ .ok x.text := by
  obtain ⟨answer, hanswer, heq⟩ := Converter.answered_convertBy
    (c := { registry := r, preferences := settings.preferences })
    (Settings.wellBuilt_of_buildRegistry hregistry) direction
    { parseCompound := some !noParse, failLoud := some !quiet } x unit
  refine ⟨answer, hanswer, ends_of_says hsettings hlog hregistry h ?_⟩
  have hsays := says_performInternal { registry := r, preferences := settings.preferences }
    direction x unit noParse quiet
  rw [heq] at hsays
  cases answer <;> exact hsays

/-- A conversion between two units parses as the settings say. -/
theorem converts_convert (x : Double) {source target : RawText}
    (h : (Command.convert x source target).IsRecordable logs) (hne : source ≠ target) :
    ((i.asking (.convert x source target)).run host moment).Converts
      (r.Accepts settings.preferences.parseCompound source ∧
        r.Accepts settings.preferences.parseCompound target)
      settings.preferences.failLoud fun x ↦ .ok x.text := by
  obtain ⟨answer, hanswer, heq⟩ := Converter.answered_convert
    (c := { registry := r, preferences := settings.preferences })
    (Settings.wellBuilt_of_buildRegistry hregistry) x hne
  refine ⟨answer, hanswer, ends_of_says hsettings hlog hregistry h ?_⟩
  rw [fst_perform_convert, heq]
  cases answer <;> exact Deed.says_ofText _

/-- Between equal units a value stays as it is, whatever they are. -/
theorem ends_convert_self (x : Double) (unit : RawText)
    (h : (Command.convert x unit unit).IsRecordable logs) :
    ((i.asking (.convert x unit unit)).run host moment).Ends (.ok x.text) := by
  refine ends_of_says hsettings hlog hregistry h ?_
  rw [fst_perform_convert, Converter.convert, if_pos rfl]
  exact Deed.says_ofText _

/-- Rendering parses as the settings say. -/
theorem converts_format (x : Double) {unit shown : RawText} {style : Style} (digits : Option Int)
    (unicode : Bool) (h : (Command.format x unit style digits unicode).IsRecordable logs)
    (hshown : Rendering.shownUnit r style unit = .ok shown) :
    ((i.asking (.format x unit style digits unicode)).run host moment).Converts
      (r.Accepts settings.preferences.parseCompound unit) settings.preferences.failLoud
      (Rendering.withUnit style (digits.getD settings.significantDigits) unicode shown) := by
  have hanswer := Rendering.answered_external
    (c := { registry := r, preferences := settings.preferences })
    (Settings.wellBuilt_of_buildRegistry hregistry) x shown
  refine ⟨_, hanswer.congr (Rendering.accepts_iff_of_shownUnit hshown _),
    ends_of_says hsettings hlog hregistry h ?_⟩
  rw [fst_perform_format, Rendering.quantity_fst, hshown]
  exact Deed.says_ofText _

/-- A style may refuse a unit before it is converted. -/
theorem ends_format_refused (x : Double) {unit : RawText} {style : Style} (digits : Option Int)
    (unicode : Bool) (h : (Command.format x unit style digits unicode).IsRecordable logs)
    {cause : RenderingError} (hrefused : Rendering.shownUnit r style unit = .error cause) :
    ((i.asking (.format x unit style digits unicode)).run host moment).Ends
      (.error (.rendering cause)) := by
  refine ends_of_says hsettings hlog hregistry h ?_
  rw [fst_perform_format, Rendering.quantity_fst, hrefused]
  exact Deed.says_ofText _

/-- A check parses unless it is told not to, whatever the settings say. -/
theorem accepts_check {units : List RawText} (h : ∀ unit ∈ units, unit.isWritable = true)
    (noParse : Bool) :
    let o := (i.asking (.check units noParse)).run host moment
    (o.exitCode = 0 ↔ ∀ unit ∈ units, r.Accepts (!noParse) unit) ∧
      ∃ (verdicts : List Verdict) (code : Nat) (summary : List RawText),
        verdicts.map Verdict.unit = units ∧
        (∀ v ∈ verdicts, v.cause? = none ↔ r.Accepts (!noParse) v.unit) ∧
        o.ending = .exit code ∧ o.out = verdictLines verdicts ++ summary := by
  intro o
  have hr := Settings.wellBuilt_of_buildRegistry hregistry
  obtain ⟨verdicts, hjudges⟩ := exists_judges hr noParse units
  have hasking : (i.asking (.check units noParse)).settings host = .ok settings := hsettings
  obtain ⟨hending, hout⟩ := run_check hasking hlog hregistry rfl h hjudges
  have haccepts : ∀ v ∈ verdicts, v.cause? = none ↔ r.Accepts (!noParse) v.unit :=
    fun v hv ↦ cause?_eq_none_iff hr (hjudges.answer_eq v hv)
  refine ⟨?_, verdicts, _, _, hjudges.units_eq, haccepts, hending, hout⟩
  have hcauses : (causes verdicts).isEmpty = true ↔ ∀ v ∈ verdicts, v.cause? = none := by
    rw [List.isEmpty_iff, causes, List.filterMap_eq_nil_iff]
  rw [show o.exitCode = _ from congrArg Ending.exitCode hending, ← hjudges.units_eq,
    List.forall_mem_map, ← forall₂_congr haccepts, ← hcauses, Ending.exitCode]
  split <;> simp_all

end

/-- **What the commands accept.** The converter of a call accepts the units that are accepted as the
settings have it, and so do conversions between two different units and rendering, where the style
can show the unit; a failure is loud or quiet as the settings have it. Conversions to and from
internal units and checks have the option that rules out parsing, and parse without it: they accept
what the converter of the call accepts, and where that does not parse, all expressions with a value
besides. Units may be any texts unless there is a log to be kept or they are checked; then they are
proper texts. -/
theorem commands_accept (hsettings : i.settings host = .ok settings)
    (hlog : Invocation.openLog settings host moment = (.ok (), logs))
    (hregistry : settings.buildRegistry none = .ok r) :
    let p := settings.preferences
    let c : Converter := { registry := r, preferences := p }
    let run := fun command ↦ (i.asking command).run host moment
    (∀ unit, ∃ accepted, (c.accepts none (some unit)).1 = .ok accepted ∧
      (accepted = true ↔ r.Accepts p.parseCompound unit)) ∧
    (∀ x source target, (Command.convert x source target).IsRecordable logs → source ≠ target →
      (run (.convert x source target)).Converts
        (r.Accepts p.parseCompound source ∧ r.Accepts p.parseCompound target) p.failLoud
        fun x ↦ .ok x.text) ∧
    (∀ x unit, (Command.convert x unit unit).IsRecordable logs →
      (run (.convert x unit unit)).Ends (.ok x.text)) ∧
    (∀ x unit style digits unicode,
      (Command.format x unit style digits unicode).IsRecordable logs →
      (∀ shown, Rendering.shownUnit r style unit = .ok shown →
        (run (.format x unit style digits unicode)).Converts
          (r.Accepts p.parseCompound unit) p.failLoud
          (Rendering.withUnit style (digits.getD settings.significantDigits) unicode shown)) ∧
      ∀ cause, Rendering.shownUnit r style unit = .error cause →
        (run (.format x unit style digits unicode)).Ends (.error (.rendering cause))) ∧
    (∀ direction x unit noParse quiet,
      (Command.internal direction x unit noParse quiet).IsRecordable logs →
      (run (.internal direction x unit noParse quiet)).Converts (r.Accepts (!noParse) unit)
        (!quiet) fun x ↦ .ok x.text) ∧
    (∀ units noParse, (∀ unit ∈ units, unit.isWritable = true) →
      let o := run (.check units noParse)
      (o.exitCode = 0 ↔ ∀ unit ∈ units, r.Accepts (!noParse) unit) ∧
      ∃ (verdicts : List Verdict) (code : Nat) (summary : List RawText),
        verdicts.map Verdict.unit = units ∧
        (∀ v ∈ verdicts, v.cause? = none ↔ r.Accepts (!noParse) v.unit) ∧
        o.ending = .exit code ∧ o.out = verdictLines verdicts ++ summary) ∧
    ∀ direction x unit, (Command.internal direction x unit false false).IsRecordable logs →
      ((run (.internal direction x unit false false)).exitCode = 0 ↔
        (c.accepts none (some unit)).1 = .ok true ∨
          p.parseCompound = false ∧ ∃ m, Expression.evaluate r unit = .ok m) ∧
      (unit.isWritable = true → ((run (.check [unit] false)).exitCode = 0 ↔
        (run (.internal direction x unit false false)).exitCode = 0)) := by
  intro p c run
  have hasked := Converter.exists_accepts_eq_of_buildRegistry hregistry p none
  refine ⟨hasked, fun x source target ↦ converts_convert hsettings hlog hregistry x,
    ends_convert_self hsettings hlog hregistry, fun x unit style digits unicode h ↦
    ⟨fun shown ↦ converts_format hsettings hlog hregistry x digits unicode h,
      fun cause ↦ ends_format_refused hsettings hlog hregistry x digits unicode h⟩,
    converts_internal hsettings hlog hregistry,
    fun units noParse h ↦ accepts_check hsettings hlog hregistry h noParse,
    fun direction x unit h ↦ ?_⟩
  have hinternal : (run (.internal direction x unit false false)).exitCode = 0 ↔
      r.Accepts true unit :=
    (converts_internal hsettings hlog hregistry direction x unit false false
      h).exitCode_eq_zero_iff
  refine ⟨?_, fun hunit ↦ ?_⟩
  · obtain ⟨accepted, haccepted, hiff⟩ := hasked unit
    rw [hinternal, haccepted, Except.ok.injEq, hiff]
    exact Registry.accepts_true_iff
  · have hcheck := (accepts_check hsettings hlog hregistry (List.forall_mem_singleton.2 hunit)
      false).1
    rw [List.forall_mem_singleton] at hcheck
    exact hcheck.trans hinternal.symm

/-! ### A call whose settings rule out parsing -/

/-- A call with a settings file that rules out parsing. -/
def unparsedCall : Invocation where
  config := some (.ofString "units.json")
  logFile := none
  verbose := false
  command := .internal .toInternal
  request := .run (.internal .toInternal 1 "km/s" false false)

def unparsedHost : Host where
  disk _ := .file "\x7b\"parse_compound\": false\x7d".toUTF8
  wording := id

theorem commands_accept_unparsed :
    let run := fun command ↦
      (unparsedCall.asking command).run unparsedHost { stamp := ⟨"", "", ""⟩ }
    (run (.internal .toInternal 1 "km/s" false false)).exitCode = 0 ∧
      (run (.check [.ofString "km/s"] false)).exitCode = 0 ∧
      (run (.convert 1 "km/s" "m")).exitCode ≠ 0 := by
  intro run
  have hread : (unparsedCall.settings unparsedHost).map (fun settings ↦
      (settings.preferences, settings.extraUnits.length,
        (Invocation.openLog settings unparsedHost { stamp := ⟨"", "", ""⟩ }).1,
        (Invocation.openLog settings unparsedHost { stamp := ⟨"", "", ""⟩ }).2.attached)) =
      .ok ({ parseCompound := false }, 0, .ok (), []) := by
    decide +kernel
  obtain ⟨settings, hsettings, heq⟩ := exists_of_map_eq_ok hread
  obtain ⟨hpreferences, hunits, hopened, hattached⟩ := by simpa only [Prod.mk.injEq] using heq
  obtain ⟨logs, hlog⟩ : ∃ logs, Invocation.openLog settings unparsedHost
      { stamp := ⟨"", "", ""⟩ } = (.ok (), logs) := ⟨_, Prod.ext hopened rfl⟩
  rw [hlog] at hattached
  have hregistry : settings.buildRegistry none = .ok .builtIn := by
    rw [Settings.buildRegistry, List.length_eq_zero_iff.1 hunits]
    rfl
  obtain ⟨-, hconvert, -, -, -, -, hparsed⟩ := commands_accept hsettings hlog hregistry
  rw [hpreferences] at hconvert hparsed
  obtain ⟨hinternal, hcheck⟩ := hparsed .toInternal 1 "km/s" (Or.inl hattached)
  have hvalue : (Expression.evaluate .builtIn "km/s").isOk = true := by decide +kernel
  have hunregistered : Registry.builtIn.contains "km/s" = false := by decide +kernel
  have hexit : (run (.internal .toInternal 1 "km/s" false false)).exitCode = 0 := by
    refine hinternal.2 (Or.inr ⟨rfl, ?_⟩)
    rcases h : Expression.evaluate .builtIn "km/s" with e | multiplier
    · rw [h] at hvalue
      exact absurd hvalue Bool.false_ne_true
    · exact ⟨multiplier, rfl⟩
  refine ⟨hexit, (hcheck (RawText.isWritable_ofString _)).2 hexit, fun hzero ↦ ?_⟩
  have haccepts := (hconvert 1 "km/s" "m" (Or.inl hattached) (by decide)).exitCode_eq_zero_iff.1
    hzero
  rcases haccepts.1 with hempty | hregistered | ⟨hparse, -⟩
  · exact absurd hempty (by decide)
  · exact absurd (hunregistered.symm.trans hregistered) (by simp)
  · exact absurd hparse Bool.false_ne_true

/-- The call converts by a compound unit that is not registered, though its converter refuses that
unit. -/
theorem compound_accepted_unparsed :
    let run := fun words : List String ↦ run unparsedHost { stamp := ⟨"", "", ""⟩ }
      (("-c" :: "units.json" :: words).map .ofString)
    (do let settings ← unparsedCall.settings unparsedHost
        let c ← settings.buildConverter
        (c.accepts none (some (.ofString "km/s"))).1) = .ok false ∧
      (run ["to-internal", "1", "km/s"]).exitCode = 0 ∧
      (run ["to-internal", "1", "km/s"]).out = [.ofString "1000.0"] ∧
      (run ["from-internal", "1", "km/s"]).exitCode = 0 ∧
      (run ["check", "km/s"]).exitCode = 0 ∧
      (run ["convert", "1", "km/s", "m"]).exitCode = 1 ∧
      (run ["format", "1", "--unit", "km/s"]).exitCode = 1 := by
  decide +kernel

end CommandLine

end Metrology
