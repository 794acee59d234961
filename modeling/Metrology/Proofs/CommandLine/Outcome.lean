import Metrology.Proofs.CommandLine.Log
import Metrology.Proofs.CommandLine.Texts
import Metrology.Proofs.Settings.Loading
import Metrology.Proofs.Settings.Registry

/-!
# How a call ends

A call that gets as far as its command reports the library's own failures by their message, and so
does a call whose settings are refused. A failure of the library's own escapes in one place: an
added unit has the symbol of a nonlinear one, which is found when the converter is made
(`run_outcome`).

If a log was opened it is complete however the call ends, unless something that the call was to tell
it is no proper text. Then it may be that the log cannot be closed, and that comes before whatever
else there would be to report (`FailsToClose`).
-/

namespace Metrology.CommandLine

open LogTree

variable {i : Invocation} {host : Host} {moment : Moment} {settings : Settings} {logs : LogTree}
  {failure : Failure} {message : RawText}

namespace Invocation

/-! ### Settings -/

theorem own_of_escapes {bytes : ByteArray} (h : Settings.Escapes bytes failure) :
    failure.ownMessage? = none := by
  cases h <;> rfl

/-- Settings of a call: those of a file, or of none, but for what its options change; or the failure
to load them. -/
inductive Loaded (wording : String → String) : Except Failure Settings → Prop where
  | plain {settings : Settings} (h : settings.extraUnits = []) : Loaded wording (.ok settings)
  | loaded {path : RawText} {content : Except String ByteArray} {s settings : Settings}
      (hbytes : Settings.ofBytes wording path content = .ok s)
      (h : settings.extraUnits = s.extraUnits) : Loaded wording (.ok settings)
  | failed {path : RawText} {content : Except String ByteArray} {failure : Failure}
      (hbytes : Settings.ofBytes wording path content = .error failure) :
      Loaded wording (.error failure)

theorem loaded_settings (i : Invocation) (host : Host) :
    Loaded host.wording (i.settings host) := by
  rw [settings]
  rcases i.config with _ | path
  · exact .plain rfl
  · dsimp only
    rcases hbytes : Settings.ofBytes host.wording path (content host (LogPath.plain path)) with
      failure | s
    · exact .failed hbytes
    · exact .loaded hbytes rfl

/-- The units that the settings of a call add have multipliers that can be used. -/
theorem isUsable_of_settings (h : i.settings host = .ok settings) :
    ∀ entry ∈ settings.extraUnits, entry.2.isUsable = true := by
  have hloaded := loaded_settings i host
  rw [h] at hloaded
  cases hloaded with
  | plain hunits =>
    rw [hunits]
    exact List.forall_mem_nil _
  | loaded hbytes hunits =>
    rw [hunits]
    exact (Settings.valid_of_ofBytes hbytes).1.isUsable

/-- Settings are refused as such, or by a failure that is none of the library's own. -/
theorem own_of_settings (h : i.settings host = .error failure) :
    (∃ cause, failure = .settings cause) ∨ failure.ownMessage? = none := by
  have hloaded := loaded_settings i host
  rw [h] at hloaded
  cases hloaded with
  | failed hbytes =>
    rcases Settings.reason_of_ofBytes hbytes with ⟨cause, rfl, -⟩ | ⟨bytes, -, hescapes⟩
    · exact Or.inl ⟨cause, rfl⟩
    · exact Or.inr (own_of_escapes hescapes)

/-! ### Performing -/

/-- An added unit of the settings has the symbol of a nonlinear unit, and the failure says so. -/
def Clashes (settings : Settings) (failure : Failure) : Prop :=
  ∃ entry ∈ settings.extraUnits, Settings.RefusedUnit Registry.builtIn entry failure

theorem clashes_of_buildConverter
    (husable : ∀ entry ∈ settings.extraUnits, entry.2.isUsable = true)
    (h : settings.buildConverter = .error failure) : Clashes settings failure := by
  rw [Settings.buildConverter] at h
  rcases hbuild : settings.buildRegistry none with failure' | registry
  · rw [hbuild] at h
    obtain rfl : failure' = failure := Except.error.inj h
    have hrefusal := Settings.refusal_of_buildRegistry husable hbuild
    rwa [Option.getD_none] at hrefusal
  · rw [hbuild] at h
    exact absurd h (by simp [bind, Except.bind, pure, Except.pure])

/-- A deed that fails with one of the library's own failures is reported. -/
theorem ending_report_of_own {deed : Deed} (hanswer : deed.answer = .error failure)
    (hown : failure.ownMessage? = some message) :
    (report logs moment deed).ending = .report message := by
  rw [report, hanswer]
  dsimp only
  rw [hown]

theorem own_of_report {deed : Deed} (h : (report logs moment deed).ending = .escape failure) :
    failure.ownMessage? = none := by
  rw [report] at h
  split at h
  · exact absurd h (by simp)
  · split at h
    · next hown => exact Ending.escape.inj h ▸ hown
    · exact absurd h (by simp)

theorem own_of_perform (husable : ∀ entry ∈ settings.extraUnits, entry.2.isUsable = true)
    (h : (i.perform settings moment logs).ending = .escape failure) :
    failure.ownMessage? = none ∨ Clashes settings failure := by
  rw [perform] at h
  split at h
  · next failure' hbuild =>
    obtain rfl : failure' = failure := Ending.escape.inj h
    exact Or.inr (clashes_of_buildConverter husable hbuild)
  · refine Or.inl ?_
    split at h
    · exact own_of_report h
    · exact absurd h (by simp)
    · exact absurd h (by simp)

/-! ### Closing the log -/

/-- All that performing the command of a call sends to the log are proper texts. -/
def IsSound (i : Invocation) (settings : Settings) : Prop :=
  ∀ message ∈ i.messages settings, message.isWritable = true

/-- What a command says that names proper texts only are proper texts. -/
theorem isSound_of_units {c : Converter} (hbuild : settings.buildConverter = .ok c)
    (hc : c.HasProperRemarks) {command : Command} (hrequest : i.request = .run command)
    (h : ∀ unit ∈ command.units, unit.isWritable = true) : i.IsSound settings := by
  obtain ⟨hremarks, hfails⟩ := speaks_perform settings hc h
  rw [IsSound, messages, hbuild, hrequest]
  refine List.forall_mem_append.2 ⟨hremarks, fun message hmem ↦ ?_⟩
  rw [Option.mem_toList, Deed.message?] at hmem
  split at hmem
  · obtain ⟨text, -, rfl⟩ := Option.map_eq_some_iff.1 hmem
    exact RawText.isWritable_ofString text
  · next failure hanswer => exact hfails failure hanswer message hmem

/-- A call ends by the failure to close its log, which is left without a footer. -/
structure FailsToClose (i : Invocation) (settings : Settings) (moment : Moment) (o : Outcome) :
    Prop where
  not_isSound : ¬i.IsSound settings
  ending_eq : o.ending = .escape .unwritableText
  isLeftOpen : ∃ path, IsLeftOpen (headerText moment.stamp path) path o.logs

/-- Closing the log keeps the lines of a call and its end, and completes the log if there is one;
or else it fails, and that is how the call ends. -/
theorem closeLog_perform (i : Invocation) (h : openLog settings host moment = (.ok (), logs)) :
    ∃ logs', closeLog (i.perform settings moment logs) moment =
          { i.perform settings moment logs with logs := logs' } ∧
        (logs.attached ≠ [] → ∃ path,
          IsClosed (headerText moment.stamp path) path moment (i.IsSound settings) logs') ∨
      closeLog (i.perform settings moment logs) moment =
          { i.perform settings moment logs with ending := .escape .unwritableText, logs := logs' } ∧
        FailsToClose i settings moment (closeLog (i.perform settings moment logs) moment) ∧
        logs.attached ≠ [] := by
  rcases openLog_outcome settings host moment (i.IsSound settings) with
    ⟨_, _, herror, -⟩ | hnone | ⟨path, t, hok, ht⟩
  · exact absurd (h.symm.trans herror) (by simp)
  · obtain rfl : logs = {} := congrArg Prod.snd (h.symm.trans hnone)
    have hlogs : (i.perform settings moment {}).logs = {} :=
      logs_perform_induction (P := fun t ↦ t = {}) (fun t name severity message _ ht ↦ by
        rw [ht, LogTree.send]
        split <;> rfl) rfl
    rw [closeLog_of_no_log hlogs]
    exact ⟨_, Or.inl ⟨rfl, fun hattached ↦ absurd rfl hattached⟩⟩
  · obtain rfl : logs = t := congrArg Prod.snd (h.symm.trans hok)
    have hlogging := logs_perform_induction
      (P := IsLogging (headerText moment.stamp path) path (i.IsSound settings))
      (fun t name severity message hmem ht ↦
        ht.send moment name severity fun hsound ↦ hsound message hmem) ht
    obtain ⟨logs', ⟨hclosed, hclose⟩ | ⟨hunsound, hopen, hclose⟩⟩ :=
      closeLog_of_isLogging hlogging moment
    · exact ⟨logs', Or.inl ⟨hclose, fun _ ↦ ⟨path, hclosed⟩⟩⟩
    · refine ⟨logs', Or.inr ⟨hclose, ?_, by rw [ht.attached_eq]; exact List.cons_ne_nil _ _⟩⟩
      rw [hclose]
      exact ⟨hunsound, rfl, path, hopen⟩

end Invocation

/-! ### The whole call -/

open Invocation

theorem run_of_openLog (h : i.settings host = .ok settings)
    (hlog : openLog settings host moment = (.ok (), logs)) :
    i.run host moment = closeLog (i.perform settings moment logs) moment := by
  rw [Invocation.run, h]
  dsimp only
  rw [hlog]

theorem perform_eq_report {c : Converter} {command : Command}
    (hbuild : settings.buildConverter = .ok c) (hrequest : i.request = .run command) :
    i.perform settings moment logs =
      let deed := command.perform settings c
      let outcome := report (logs.sendRemarks moment deed.2.remarks) moment deed.1
      { outcome with notes := remarkLines logs deed.2.remarks ++ outcome.notes } := by
  rw [perform, hbuild, hrequest]

/-- A call that gets as far as its command leaves the lines and the end of the report of it, unless
its log cannot be closed. -/
theorem run_like_report {c : Converter} {command : Command}
    (h : i.settings host = .ok settings) (hlog : openLog settings host moment = (.ok (), logs))
    (hbuild : settings.buildConverter = .ok c) (hrequest : i.request = .run command) :
    let reported := report (logs.sendRemarks moment (command.perform settings c).2.remarks) moment
      (command.perform settings c).1
    (i.run host moment).out = reported.out ∧
      ((i.run host moment).ending = reported.ending ∨
        FailsToClose i settings moment (i.run host moment) ∧ logs.attached ≠ []) := by
  intro reported
  rw [run_of_openLog h hlog]
  obtain ⟨logs', ⟨hclose, -⟩ | ⟨hclose, hfails, hattached⟩⟩ :=
    closeLog_perform i hlog
  · rw [hclose, perform_eq_report hbuild hrequest]
    exact ⟨rfl, Or.inl rfl⟩
  · refine ⟨?_, Or.inr ⟨hfails, hattached⟩⟩
    rw [hclose, perform_eq_report hbuild hrequest]

/-- What a command says can be recorded: there is no log, or only proper texts are named. -/
def Command.IsRecordable (command : Command) (logs : LogTree) : Prop :=
  logs.attached = [] ∨ ∀ unit ∈ command.units, unit.isWritable = true

theorem run_of_isRecordable {r : Registry} {command : Command}
    (h : i.settings host = .ok settings) (hlog : openLog settings host moment = (.ok (), logs))
    (hregistry : settings.buildRegistry none = .ok r) (hrequest : i.request = .run command)
    (hrecordable : command.IsRecordable logs) :
    let performed := command.perform settings { registry := r, preferences := settings.preferences }
    let reported := report (logs.sendRemarks moment performed.2.remarks) moment performed.1
    (i.run host moment).out = reported.out ∧ (i.run host moment).ending = reported.ending := by
  have hbuild := Settings.buildConverter_eq hregistry
  obtain ⟨hout, hending | ⟨hfails, hattached⟩⟩ := run_like_report h hlog hbuild hrequest
  · exact ⟨hout, hending⟩
  · have hunits := hrecordable.resolve_left hattached
    exact absurd (isSound_of_units hbuild (List.forall_mem_nil _) hrequest hunits)
      hfails.not_isSound

/-- What escapes a call is none of the library's own failures, but for a clash of its settings. -/
theorem own_of_run (h : (i.run host moment).ending = .escape failure) :
    failure.ownMessage? = none ∨
      ∃ settings, i.settings host = .ok settings ∧ Clashes settings failure := by
  -- A call ends where its settings are refused, where it gets no log, or after its command.
  rcases hsettings : i.settings host with failure' | settings
  · refine Or.inl ?_
    rw [Invocation.run, hsettings] at h
    rcases own_of_settings hsettings with ⟨cause, rfl⟩ | hown
    · exact absurd h (by simp)
    · cases failure' with
      | settings cause => exact absurd hown (by simp [Failure.ownMessage?])
      | _ => exact Ending.escape.inj h ▸ hown
  · rcases hlog : openLog settings host moment with ⟨failure' | _, logs⟩
    · rw [Invocation.run, hsettings] at h
      simp only [hlog] at h
      obtain rfl : failure' = failure := Ending.escape.inj h
      rcases openLog_outcome settings host moment True with
        ⟨_, _, herror, hown⟩ | hok | ⟨_, _, hok, -⟩
      · obtain rfl := Except.error.inj (congrArg Prod.fst (hlog.symm.trans herror))
        exact Or.inl hown
      · exact absurd (hlog.symm.trans hok) (by simp)
      · exact absurd (hlog.symm.trans hok) (by simp)
    · rw [run_of_openLog hsettings hlog] at h
      obtain ⟨logs', ⟨hclose, -⟩ | ⟨hclose, -, -⟩⟩ := closeLog_perform i hlog
      · rw [hclose] at h
        exact (own_of_perform (isUsable_of_settings hsettings) h).imp_right fun hclash ↦
          ⟨settings, rfl, hclash⟩
      · rw [hclose] at h
        exact Or.inl (Ending.escape.inj h ▸ rfl)

/-- **The library's own failures end a call with their message**, both those of its settings and
those of its command, and its log is complete if it was opened. If not all that the log is told are
proper texts, the failure to close it may take their place. Otherwise only what a unit added by the
settings does to the registry escapes. -/
theorem run_outcome (i : Invocation) (host : Host) (moment : Moment) :
    let o := i.run host moment
    (∀ cause, i.settings host = .error (.settings cause) →
      o.exitCode = 1 ∧ o.err = [Ending.errorLine cause.message] ∧ o.out = [] ∧ o.logs = {}) ∧
    (∀ settings logs, i.settings host = .ok settings →
      openLog settings host moment = (.ok (), logs) →
      (∀ converter command failure message, settings.buildConverter = .ok converter →
        i.request = .run command →
        (command.perform settings converter).1.answer = .error failure →
        failure.ownMessage? = some message →
        o.exitCode = 1 ∧ (∃ notes, o.err = notes ++ [Ending.errorLine message]) ∨
          FailsToClose i settings moment o) ∧
      (logs.attached ≠ [] →
        (∃ path, IsClosed (headerText moment.stamp path) path moment (i.IsSound settings) o.logs) ∨
          FailsToClose i settings moment o)) ∧
    (∀ failure message, o.ending = .escape failure → failure.ownMessage? = some message →
      ∃ settings, i.settings host = .ok settings ∧ Clashes settings failure) := by
  intro o
  refine ⟨fun cause hsettings ↦ ?_, fun settings logs hsettings hlog ↦ ⟨?_, fun hattached ↦ ?_⟩,
    fun failure message hescaped hown ↦ ?_⟩
  · have ho : o = { ending := .report cause.message } := by
      simp only [o, Invocation.run, hsettings]
    rw [ho]
    exact ⟨rfl, rfl, rfl, rfl⟩
  · intro converter command failure message hbuild hrequest hanswer hown
    rcases (run_like_report hsettings hlog hbuild hrequest).2 with hending | ⟨hfails, -⟩
    · refine Or.inl ?_
      have hreport : o.ending = .report message :=
        hending.trans (ending_report_of_own hanswer hown)
      rw [Outcome.exitCode, Outcome.err, hreport]
      exact ⟨rfl, o.notes, rfl⟩
    · exact Or.inr hfails
  · rw [show o = _ from run_of_openLog hsettings hlog]
    obtain ⟨logs', ⟨hclose, hclosed⟩ | ⟨-, hfails, -⟩⟩ := closeLog_perform i hlog
    · rw [hclose]
      exact Or.inl (hclosed hattached)
    · exact Or.inr hfails
  · exact (own_of_run hescaped).resolve_left (by simp [hown])

/-- The failure to convert by a unit that is no text is recorded, but cannot be written. -/
example :
    let i : Invocation :=
      { config := none, logFile := some (.ofString "units.log"), verbose := false,
        command := .internal .toInternal,
        request := .run (.internal .toInternal 1 ⟨[.half 0xdcff]⟩ false false) }
    let moment : Moment := { stamp := ⟨"", "", ""⟩ }
    let o := i.run { disk := fun _ ↦ .missing, wording := id } moment
    o.ending = .escape .unwritableText ∧ o.err = [] ∧
      (o.logs.file "units.log").content = some (headerText moment.stamp "units.log") := by
  decide +kernel

/-- A call with a settings file that adds a unit under the symbol of a nonlinear one. -/
def clashingCall : Invocation where
  config := some (.ofString "units.json")
  logFile := none
  verbose := false
  command := .internal .toInternal
  request := .run (.internal .toInternal 1 "m" false false)

def clashingHost : Host where
  disk _ := .file "\x7b\"extra_units\": \x7b\"degC\": 1.0\x7d\x7d".toUTF8
  wording := id

/-- The clash escapes, and nothing is reported. -/
theorem clash_escapes :
    let o := clashingCall.run clashingHost { stamp := ⟨"", "", ""⟩ }
    o.ending = .escape (.settings (.refusedExtraUnit "degC" (.registeredNonlinear "degC"))) ∧
      o.out = [] ∧ o.err = [] := by
  decide +kernel

end Metrology.CommandLine
