import Metrology.CommandLine.Run
import Metrology.Proofs.Journal.Messages

/-!
# The log of a call

A call has no log, or one that is opened before anything else is done (`openLog_outcome`). Whatever
the call does afterwards, it does nothing to the log but send records, and these are told in advance
(`Invocation.messages`, `logs_perform_induction`).

If all of them are proper texts the log can be closed: it is left with all its lines under a footer,
and closing it changes neither the lines of the call nor its end. Otherwise some lines may be lost
before, or be in the way when the log is closed; then the log gets no footer, and that is how the
call ends (`closeLog_of_isLogging`).
-/

namespace Metrology

/-! ### Accounts -/

namespace Journal

variable {before : String} {sound : Prop} {j : Journal} {file : LogFile}

/-- Each message that a journal has taken is a line of its file, or waits, or is lost. If all is
sound none is lost, and those that wait can be written. -/
structure Accounts (before : String) (sound : Prop) (j : Journal) (file : LogFile) : Prop where
  blocked_eq : file.blocked = false
  exists_lines : ∃ lines pending lost, file.content = some (before ++ joinLines lines) ∧
    j.Holds pending ∧ j.messages = lines.length + pending.length + lost ∧
    (sound → lost = 0 ∧ ∀ entry ∈ pending, entry.isWritable = true)

theorem Keeps.accounts (h : Keeps before [] j file) : j.Accounts before sound file := by
  obtain ⟨hblocked, hmessages, lines, pending, hcontent, hpending, htaken⟩ := h
  obtain ⟨hlines, rfl⟩ := List.append_eq_nil_iff.1 htaken.symm
  obtain rfl := List.map_eq_nil_iff.1 hlines
  exact ⟨hblocked, [], [], 0, hcontent, hpending, hmessages, fun _ ↦ ⟨rfl, List.forall_mem_nil _⟩⟩

namespace Accounts

theorem accept (h : j.Accounts before sound file) {entry : RawText}
    (hentry : sound → entry.isWritable = true) : (j.accept entry).Accounts before sound file := by
  obtain ⟨hblocked, lines, pending, lost, hcontent, hpending, hmessages, hsound⟩ := h
  refine ⟨hblocked, lines, pending ++ [entry], lost, hcontent, hpending.accept entry, ?_,
    fun hs ↦ ⟨(hsound hs).1, List.forall_mem_append.2
      ⟨(hsound hs).2, List.forall_mem_singleton.2 (hentry hs)⟩⟩⟩
  rw [messages_accept, hmessages, List.length_append, List.length_singleton]
  omega

/-- A batch is written, or lost if there is something in it that cannot be written. -/
theorem flush (h : j.Accounts before sound file) (now : Int) :
    (j.flush file now).2.1.Accounts before sound (j.flush file now).2.2 ∧
      ((j.flush file now).1 = .ok () ∨
        (j.flush file now).1 = .error .unwritableText ∧ ¬sound) := by
  obtain ⟨hblocked, lines, pending, lost, hcontent, hpending, hmessages, hsound⟩ := h
  have hflushing := flushing j file now
  generalize j.flush file now = outcome at hflushing ⊢
  cases hflushing with
  | idle =>
    exact ⟨⟨hblocked, lines, pending, lost, hcontent, hpending, hmessages, hsound⟩, Or.inl rfl⟩
  | refused _ hrefused => exact absurd (hblocked.symm.trans hrefused) (by simp)
  | unwritable _ _ hbuffer =>
    have hunsound : ¬sound := fun hs ↦ by
      rw [hpending.buffer_eq, isWritable_rawLines, List.all_eq_true.2 (hsound hs).2] at hbuffer
      exact absurd hbuffer (by simp)
    refine ⟨⟨hblocked, lines, [], lost + pending.length, ?_, holds_emptied j now, ?_,
      fun hs ↦ absurd hs hunsound⟩, Or.inr ⟨rfl, hunsound⟩⟩
    · show some (file.content.getD "" ++ "") = _
      rw [hcontent, Option.getD_some, String.append_empty]
    · show j.messages = _
      rw [hmessages, List.length_nil]
      omega
  | written _ _ hbuffer =>
    obtain ⟨batch, rfl, rfl⟩ := exists_lines_of_rawLines (hpending.buffer_eq.symm.trans hbuffer)
    refine ⟨⟨hblocked, lines ++ batch, [], lost, ?_, ⟨rfl, rfl⟩, ?_,
      fun hs ↦ ⟨(hsound hs).1, List.forall_mem_nil _⟩⟩, Or.inl rfl⟩
    · show some (file.content.getD "" ++ joinLines batch) = _
      rw [hcontent, Option.getD_some, joinLines_append, String.append_assoc]
    · show j.messages = _
      rw [hmessages, List.length_map, List.length_append, List.length_nil]
      omega

theorem log (h : j.Accounts before sound file) (moment : LogTree.Moment) (level : String)
    (category : Option String) {message : RawText} (hmessage : sound → message.isWritable = true) :
    (j.log file moment.stamp moment.now level category message).2.1.Accounts before sound
      (j.log file moment.stamp moment.now level category message).2.2 := by
  have hentry : sound →
      (entryText moment.stamp.time level category message).isWritable = true :=
    fun hs ↦ by rw [isWritable_entryText, hmessage hs]
  have haccepted := h.accept hentry
  rw [log_eq_settle, settle]
  split
  · exact (haccepted.flush moment.now).1
  · exact haccepted

end Accounts

end Journal

namespace CommandLine

open LogTree

variable {t : LogTree} {before path : String} {moment : Moment} {sound : Prop}

/-! ### A log that is open -/

/-- The only journal is open, with an account of all that it was sent. -/
structure IsLogging (before path : String) (sound : Prop) (t : LogTree) : Prop where
  attached_eq : t.attached = [0]
  shared_eq : t.shared = some 0
  exists_journal : ∃ j file, t.Has 0 j file ∧ j.path = path ∧ j.Accounts before sound file

namespace IsLogging

theorem setLevels (h : IsLogging before path sound t) (level : Severity) :
    IsLogging before path sound (t.setLevels level) := by
  obtain ⟨j, file, ⟨hlt, hjournal, hfile⟩, hrest⟩ := h.exists_journal
  exact ⟨h.attached_eq, h.shared_eq, j, file, ⟨hlt, hjournal, hfile⟩, hrest⟩

/-- A record is sent, which is a proper text if all is sound. -/
theorem send (h : IsLogging before path sound t) (moment : Moment) (name : String)
    (severity : Severity) {message : RawText} (hmessage : sound → message.isWritable = true) :
    IsLogging before path sound (t.send moment name severity message) := by
  rw [LogTree.send]
  split
  · obtain ⟨j, file, hhas, hpath, haccounts⟩ := h.exists_journal
    rw [h.attached_eq]
    have hasked := (hhas.ask moment
      (.log severity.name none (.ofString (loggerName name ++ " - ") ++ message))).2
    refine ⟨h.attached_eq, h.shared_eq, _, _, hasked, ?_,
      haccounts.log moment severity.name none fun hs ↦ by simpa using hmessage hs⟩
    exact (Journal.setUpLike_perform _ moment j file).path_eq.trans hpath
  · exact h

end IsLogging

/-! ### Opening -/

theorem checkPath_not_own {p : RawText} {failure : Failure}
    (h : LogPath.check p = .error failure) : failure.ownMessage? = none := by
  have hpoints : ∀ {points : List CodePoint},
      LogPath.failureOf? points = some failure → failure.ownMessage? = none := by
    intro points h
    rw [LogPath.failureOf?] at h
    split at h
    · exact Option.some.inj h ▸ rfl
    · split at h
      · exact Option.some.inj h ▸ rfl
      · split at h
        · exact Option.some.inj h ▸ rfl
        · exact absurd h (by simp)
  rw [LogPath.check] at h
  split at h
  · next failure' hfailure =>
    obtain rfl := Except.error.inj h
    rcases Option.or_eq_some_iff.1 hfailure with hdirectory | ⟨-, hwhole⟩
    · exact hpoints hdirectory
    · exact hpoints hwhole
  · split at h
    · exact absurd h (by simp)
    · exact Except.error.inj h ▸ rfl

theorem checkDirectories_not_own {host : Host} {directories : List String} {failure : Failure}
    (h : Invocation.checkDirectories host directories = .error failure) :
    failure.ownMessage? = none := by
  rcases directories with _ | ⟨nearest, further⟩
  · exact absurd h (by simp [Invocation.checkDirectories])
  · rw [Invocation.checkDirectories] at h
    split at h
    · exact Except.error.inj h ▸ rfl
    · split at h
      · exact Except.error.inj h ▸ rfl
      · exact absurd h (by simp)

theorem logName_not_own {host : Host} {p : RawText} {failure : Failure}
    (h : Invocation.logName host p = .error failure) : failure.ownMessage? = none := by
  rcases hname : LogPath.check p with failure' | name
  · rw [Invocation.logName, hname] at h
    exact Except.error.inj h ▸ checkPath_not_own hname
  · rcases hdirectories : Invocation.checkDirectories host (LogPath.directories name) with
      failure' | _
    · simp only [Invocation.logName, hname, hdirectories, bind, Except.bind] at h
      exact Except.error.inj h ▸ checkDirectories_not_own hdirectories
    · simp only [Invocation.logName, hname, hdirectories, bind, Except.bind] at h
      exact absurd h (by simp [pure, Except.pure])

/-- The first journal of a tree, opened as the shared one at a file without a text. -/
theorem isLogging_opened (hjournals : t.journals = []) (hattached : t.attached = [])
    (hfile : t.file path = {}) (moment : Moment) (capacity interval : Int) :
    IsLogging (headerText moment.stamp path) path sound
      { t.opened moment path false capacity interval with shared := some t.journals.length } := by
  obtain ⟨hlt, hjournal, hopened⟩ := has_opened t moment path false capacity interval
  have hkeeps := Journal.keeps_fresh (show ({} : LogFile).blocked = false from rfl) false
    moment.stamp path capacity interval moment.now
  rw [hfile] at hopened
  rw [hjournals] at hlt hjournal ⊢
  refine ⟨?_, rfl, _, _, ⟨hlt, hjournal, hopened⟩, rfl, Journal.Keeps.accounts ?_⟩
  · show t.attached ++ [t.journals.length] = [0]
    rw [hattached, hjournals]
    rfl
  · rwa [LogFile.startText, if_neg Bool.false_ne_true, Option.getD_none, String.empty_append]
      at hkeeps

/-- A tree with a new file in it opens a log there, unless the file is blocked. -/
theorem setup_new (moment : Moment) (path : String) (blocked verbose : Bool) (sound : Prop) :
    let t : LogTree := { files := [(path, { blocked })] }
    (t.setup moment path false verbose).1 = .error .isDirectory ∨
      (t.setup moment path false verbose).1 = .ok 0 ∧
        IsLogging (headerText moment.stamp path) path sound
          (t.setup moment path false verbose).2 := by
  intro t
  have hfile : t.file path = { blocked } := by
    show (List.lookup path [(path, ({ blocked } : LogFile))]).getD {} = _
    rw [List.lookup_cons, beq_self_eq_true]
    rfl
  cases blocked with
  | true =>
    refine Or.inl ?_
    rw [setup_fst, share_of_blocked rfl (congrArg LogFile.blocked hfile)]
  | false =>
    have hlogging : IsLogging _ _ sound _ := isLogging_opened rfl rfl hfile moment
      Journal.defaultCapacity Journal.defaultInterval
    refine Or.inr ⟨?_, ?_⟩
    · rw [setup_fst, share_of_none rfl (congrArg LogFile.blocked hfile)]
      rfl
    · rw [setup, share_of_none rfl (congrArg LogFile.blocked hfile)]
      cases verbose
      · exact hlogging
      · exact hlogging.setLevels .debug

/-- **How a log can be opened**: not at all, for a reason that is none of the library's own; or
there is to be none; or there is one, and nothing in it but its header. -/
theorem openLog_outcome (settings : Settings) (host : Host) (moment : Moment) (sound : Prop) :
    (∃ failure logs, Invocation.openLog settings host moment = (.error failure, logs) ∧
      failure.ownMessage? = none) ∨
      Invocation.openLog settings host moment = (.ok (), {}) ∨
      ∃ path logs, Invocation.openLog settings host moment = (.ok (), logs) ∧
        IsLogging (headerText moment.stamp path) path sound logs := by
  rw [Invocation.openLog]
  split
  · next p _ =>
    split
    · exact Or.inr (Or.inl rfl)
    · split
      · next failure hname => exact Or.inl ⟨failure, {}, rfl, logName_not_own hname⟩
      · next path _ =>
        have hsetup := setup_new moment path (!Invocation.isLogFile host path)
          settings.verbose sound
        dsimp only at hsetup ⊢
        generalize LogTree.setup _ moment path false settings.verbose = outcome at hsetup ⊢
        obtain ⟨answer, logs⟩ := outcome
        rcases hsetup with hfailed | ⟨hok, hlogging⟩
        · obtain rfl : answer = .error .isDirectory := hfailed
          exact Or.inl ⟨_, _, rfl, rfl⟩
        · obtain rfl : answer = .ok 0 := hok
          exact Or.inr (Or.inr ⟨path, logs, rfl, hlogging⟩)
  · split
    · exact Or.inl ⟨_, _, rfl, rfl⟩
    · exact Or.inr (Or.inl rfl)

/-! ### Performing -/

/-- What a deed records: its success, if that is to be recorded, or its failure, if that is one of
the library's own. -/
def Deed.message? (deed : Deed) : Option RawText :=
  match deed.answer with
  | .ok _ => deed.record.map .ofString
  | .error failure => failure.ownMessage?

/-- What performing the command of a call sends to the log. -/
def Invocation.messages (i : Invocation) (settings : Settings) : List RawText :=
  match settings.buildConverter, i.request with
  | .ok converter, .run command =>
    let (deed, converter) := command.perform settings converter
    converter.remarks ++ deed.message?.toList
  | _, _ => []

/-- What sending its messages keeps, performing a command keeps. -/
theorem logs_perform_induction {P : LogTree → Prop} {i : Invocation} {settings : Settings}
    (hsend : ∀ (t : LogTree) (name : String) (severity : Severity),
      ∀ message ∈ i.messages settings, P t → P (t.send moment name severity message))
    (h : P t) : P (i.perform settings moment t).logs := by
  have hremarks : ∀ remarks : List RawText, (∀ remark ∈ remarks, remark ∈ i.messages settings) →
      P (t.sendRemarks moment remarks) := by
    intro remarks hmem
    rw [sendRemarks]
    induction remarks generalizing t with
    | nil => exact h
    | cons remark remarks ih =>
      obtain ⟨hremark, hremarks⟩ := List.forall_mem_cons.1 hmem
      exact ih (hsend t converterLogger .debug remark hremark h) hremarks
  have hreport : ∀ (logs : LogTree) (deed : Deed),
      (∀ message ∈ deed.message?, message ∈ i.messages settings) → P logs →
        P (report logs moment deed).logs := by
    intro logs deed hmem hlogs
    rw [Deed.message?] at hmem
    rw [report]
    split
    · next hanswer =>
      rw [hanswer] at hmem
      dsimp only [recordSuccess]
      split
      · next message hrecord =>
        exact hsend logs commandLogger .info _ (hmem _ (by rw [hrecord]; rfl)) hlogs
      · exact hlogs
    · next hanswer =>
      rw [hanswer] at hmem
      split
      · exact hlogs
      · next hown => exact hsend logs commandLogger .error _ (hmem _ hown) hlogs
  rw [Invocation.perform]
  rw [Invocation.messages] at hremarks hreport
  split
  · exact h
  · next converter hbuild =>
    rw [hbuild] at hremarks hreport
    split
    · next command hrequest =>
      rw [hrequest] at hremarks hreport
      exact hreport _ _ (fun message hmessage ↦ List.mem_append_right _
        (Option.mem_toList.2 hmessage)) (hremarks _ fun _ ↦ List.mem_append_left _)
    · exact h
    · exact h

/-! ### Closing -/

theorem closeLog_of_no_log {outcome : Outcome} (h : outcome.logs = {}) (moment : Moment) :
    Invocation.closeLog outcome moment = outcome := by
  obtain ⟨ending, out, notes, logs⟩ := outcome
  obtain rfl : logs = {} := h
  rfl

/-- A log that is complete: no journal is open, and the file ends in a footer that counts its
messages, with those that were lost. -/
structure IsClosed (before path : String) (moment : Moment) (sound : Prop) (t : LogTree) :
    Prop where
  attached_eq : t.attached = []
  shared_eq : t.shared = none
  exists_lines : ∃ lines lost, (t.file path).content =
    some (before ++ joinLines lines ++ footerText moment.stamp (lines.length + lost)) ∧
      (sound → lost = 0)

/-- A log that could not be closed: the journal is still open, and the file has no footer. -/
structure IsLeftOpen (before path : String) (t : LogTree) : Prop where
  attached_eq : t.attached = [0]
  exists_lines : ∃ lines, (t.file path).content = some (before ++ joinLines lines)

/-- Finalizing the journal completes the log, or leaves it open. -/
theorem IsLogging.finalize (h : IsLogging before path sound t) (moment : Moment) :
    ((t.finalize moment 0).1 = .ok () ∧
      IsClosed before path moment sound { (t.finalize moment 0).2 with shared := none }) ∨
    (t.finalize moment 0).1 = .error .unwritableText ∧ ¬sound ∧
      IsLeftOpen before path (t.finalize moment 0).2 := by
  obtain ⟨hattached, hshared, j, file, hhas, rfl, haccounts⟩ := h
  obtain ⟨hanswer, hafter⟩ := hhas.ask moment .flush
  have hpath := (Journal.setUpLike_perform .flush moment j file).path_eq
  obtain ⟨⟨hblocked, lines, pending, lost, hcontent, hpending, hmessages, hsound⟩, hflushed⟩ :=
    haccounts.flush moment.now
  have hfinalizing := finalizing t 0 moment
  generalize t.finalize moment 0 = finalized at hfinalizing ⊢
  cases hfinalizing with
  | @unwritten t' e hflush =>
    rw [hflush] at hanswer hafter
    rcases hflushed with hok | ⟨herror, hunsound⟩
    · exact absurd (hanswer.trans hok) (by simp)
    · refine Or.inr ⟨hanswer.trans herror, hunsound, ?_, lines, ?_⟩
      · exact (congrArg (·.2.attached) hflush).symm.trans hattached
      · rw [← hcontent, ← hpath]
        exact congrArg LogFile.content hafter.file_eq
  | unfooted hflush hrefused =>
    rw [hflush] at hafter
    rw [hafter.journal_eq, hafter.file_eq] at hrefused
    exact absurd (hblocked.symm.trans hrefused) (by simp)
  | @complete t' hflush =>
    rw [hflush] at hafter
    obtain rfl := hpending.eq_nil (Journal.waiting_flush j file moment.now)
    refine Or.inl ⟨rfl, ?_, rfl, lines, lost, ?_, fun hs ↦ (hsound hs).1⟩
    · show t'.attached.filter (· ≠ 0) = []
      rw [show t'.attached = [0] from
        (congrArg (·.2.attached) hflush).symm.trans hattached]
      rfl
    · show (((t'.detach 0).setFile _ _).file j.path).content = _
      rw [hafter.journal_eq, hafter.file_eq, hpath, file_setFile_self]
      show some (Option.getD (Journal.flush j file moment.now).2.2.content "" ++
        footerText moment.stamp (Journal.flush j file moment.now).2.1.messages) = _
      rw [hcontent, hmessages, Option.getD_some, List.length_nil, Nat.add_zero]

/-- **A log can be closed if all that it was sent is proper text**, and nothing else changes then.
Otherwise the call may end by the failure to close it. -/
theorem closeLog_of_isLogging {outcome : Outcome}
    (h : IsLogging before path sound outcome.logs) (moment : Moment) :
    ∃ logs, IsClosed before path moment sound logs ∧
        Invocation.closeLog outcome moment = { outcome with logs } ∨
      ¬sound ∧ IsLeftOpen before path logs ∧ Invocation.closeLog outcome moment =
        { outcome with ending := .escape .unwritableText, logs } := by
  have hfinalize := h.finalize moment
  simp only [Invocation.closeLog, LogTree.shutdown, h.shared_eq]
  generalize outcome.logs.finalize moment 0 = finalized at hfinalize ⊢
  obtain ⟨answer, logs⟩ := finalized
  rcases hfinalize with ⟨hok, hclosed⟩ | ⟨herror, hunsound, hopen⟩
  · obtain rfl : answer = .ok () := hok
    exact ⟨_, Or.inl ⟨hclosed, rfl⟩⟩
  · obtain rfl : answer = .error .unwritableText := herror
    exact ⟨_, Or.inr ⟨hunsound, hopen, rfl⟩⟩

end CommandLine

end Metrology
