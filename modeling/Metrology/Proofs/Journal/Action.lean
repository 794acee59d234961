import Metrology.Journal.Tree

/-!
# What a journal is asked

Everything that can be asked of a journal, as data: `Journal.Action`, with the moment at which it is
asked. `Journal.play` asks one thing after the other, whether it fails or not.

What writing a batch can come to is said once, by `Journal.Flushing`. Everything else a journal does
is to take an entry, to write a batch if one is due, and to count, so what these keep is kept by
every action (`perform_induction`).

## Messages

`Journal.Keeps` says where the entries are that a journal has taken: the first ones are lines at the
end of its file, and the others wait, all in the order in which they were taken. An action keeps
that, if writing does not fail (`Keeps.perform`); it fails only if the file is blocked or if half a
surrogate pair is to be written, and a journal of proper texts on a file that is not blocked never
fails (`answers_play_of_writable`).

## Files

Of its file a journal needs to know only whether it is blocked (`alike_perform`). So a journal can
be spoken of as if it had a file of its own.
-/

namespace Metrology

/-! ### Proper texts -/

namespace RawText

/-- Texts that can all be written are proper ones. -/
theorem exists_map_ofString {ts : List RawText} (h : ∀ t ∈ ts, t.isWritable = true) :
    ∃ texts : List String, ts = texts.map ofString := by
  induction ts with
  | nil => exact ⟨[], rfl⟩
  | cons t ts ih =>
    obtain ⟨ht, hts⟩ := List.forall_mem_cons.1 h
    obtain ⟨text, htext⟩ := Option.isSome_iff_exists.1 ht
    obtain ⟨texts, rfl⟩ := ih hts
    exact ⟨text :: texts, by rw [toString?_eq_some_iff.1 htext, List.map_cons]⟩

end RawText

/-! ### Lines -/

theorem joinLines_append (l m : List String) : joinLines (l ++ m) = joinLines l ++ joinLines m := by
  rw [joinLines, joinLines, joinLines, List.map_append, String.join_append]

/-- Entries as lines, one after the other. -/
def rawLines : List RawText → RawText
  | [] => ⟨[]⟩
  | entry :: entries => Journal.line entry ++ rawLines entries

theorem rawLines_append (entries entries' : List RawText) :
    rawLines (entries ++ entries') = rawLines entries ++ rawLines entries' := by
  induction entries with
  | nil => exact (RawText.nil_append _).symm
  | cons entry entries ih => rw [List.cons_append, rawLines, rawLines, ih, RawText.append_assoc]

theorem rawLines_singleton (entry : RawText) : rawLines [entry] = Journal.line entry :=
  RawText.append_nil _

theorem line_ofString (text : String) : Journal.line (.ofString text) = .ofString (text ++ "\n") :=
  (RawText.ofString_append text "\n").symm

/-- Lines of proper texts are a proper text. -/
theorem rawLines_map_ofString (lines : List String) :
    rawLines (lines.map .ofString) = .ofString (joinLines lines) := by
  induction lines with
  | nil => rfl
  | cons line lines ih =>
    rw [List.map_cons, rawLines, ih, line_ofString, ← RawText.ofString_append, joinLines, joinLines,
      List.map_cons, String.join_cons]

/-- Lines can be written if all entries can. -/
theorem isWritable_rawLines (entries : List RawText) :
    (rawLines entries).isWritable = entries.all RawText.isWritable := by
  induction entries with
  | nil => rfl
  | cons entry entries ih =>
    rw [rawLines, RawText.isWritable_append, ih, Journal.line, RawText.isWritable_append,
      RawText.isWritable_ofString, Bool.and_true, List.all_cons]

/-- Entries whose lines make a proper text are proper texts. -/
theorem exists_lines_of_rawLines {entries : List RawText} {text : String}
    (h : rawLines entries = .ofString text) :
    ∃ lines, entries = lines.map .ofString ∧ text = joinLines lines := by
  have hwritable : ∀ entry ∈ entries, entry.isWritable = true := by
    rw [← List.all_eq_true, ← isWritable_rawLines, h, RawText.isWritable_ofString]
  obtain ⟨lines, rfl⟩ := RawText.exists_map_ofString hwritable
  rw [rawLines_map_ofString] at h
  exact ⟨lines, rfl, (RawText.ofString_injective h).symm⟩

/-- The entry of a message can be written just if the message can. -/
@[simp] theorem isWritable_entryText (time level : String) (category : Option String)
    (message : RawText) : (entryText time level category message).isWritable = message.isWritable := by
  rw [entryText, RawText.isWritable_append, RawText.isWritable_ofString, Bool.true_and]

namespace LogFile

/-- The file with a text at its end. -/
def extended (f : LogFile) (text : String) : LogFile :=
  { f with content := some (f.content.getD "" ++ text) }

theorem append_eq_ok {f : LogFile} (h : f.blocked = false) (text : String) :
    f.append text = .ok (f.extended text) := by
  rw [append, if_neg (by simp [h]), extended]

end LogFile

namespace Journal

/-! ### Entries that wait -/

/-- The entries of the lines that wait, the latest last, and as many as are counted. -/
structure Holds (j : Journal) (pending : List RawText) : Prop where
  buffer_eq : j.buffer = rawLines pending
  waiting_eq : j.waiting = pending.length

theorem Holds.accept {j : Journal} {pending : List RawText} (h : j.Holds pending)
    (entry : RawText) : (j.accept entry).Holds (pending ++ [entry]) where
  buffer_eq := by
    rw [buffer_accept, h.buffer_eq, rawLines_append, rawLines_singleton]
  waiting_eq := by
    rw [waiting_accept, h.waiting_eq, List.length_append, List.length_singleton]

theorem holds_emptied (j : Journal) (now : Int) : (j.emptied now).Holds [] := ⟨rfl, rfl⟩

theorem Holds.eq_nil {j : Journal} {pending : List RawText} (h : j.Holds pending)
    (hwaiting : j.waiting = 0) : pending = [] :=
  List.eq_nil_of_length_eq_zero (h.waiting_eq.symm.trans hwaiting)

/-! ### Batches -/

/-- What writing a batch can come to, each outcome with its conditions. -/
inductive Flushing (j : Journal) (file : LogFile) (now : Int) :
    Except Failure Unit × Journal × LogFile → Prop where
  /-- Nothing waits. -/
  | idle (hwaiting : j.waiting = 0) : Flushing j file now (.ok (), j, file)
  /-- The batch is given up. -/
  | refused (hwaiting : j.waiting ≠ 0) (hblocked : file.blocked = true) :
      Flushing j file now (.ok (), { j.emptied now with errors := j.errors + 1 }, file)
  /-- Half a surrogate pair was to be written. -/
  | unwritable (hwaiting : j.waiting ≠ 0) (hblocked : file.blocked = false)
      (hbuffer : j.buffer.isWritable = false) :
      Flushing j file now (.error .unwritableText, j.emptied now, file.extended "")
  | written {text : String} (hwaiting : j.waiting ≠ 0) (hblocked : file.blocked = false)
      (hbuffer : j.buffer = .ofString text) :
      Flushing j file now (.ok (), { j.emptied now with
          written := j.written + text.length, flushes := j.flushes + 1 }, file.extended text)

theorem flushing (j : Journal) (file : LogFile) (now : Int) :
    Flushing j file now (j.flush file now) := by
  rw [flush]
  by_cases hwaiting : j.waiting = 0
  · rw [if_pos hwaiting]
    exact .idle hwaiting
  · rw [if_neg hwaiting]
    rcases hblocked : file.blocked with _ | _
    · simp only [LogFile.append_eq_ok hblocked]
      rcases hbuffer : j.buffer.toString? with _ | text
      · simp only [Option.getD_none]
        exact .unwritable hwaiting hblocked
          (by rw [RawText.isWritable, hbuffer, Option.isSome_none])
      · simp only [Option.getD_some]
        exact .written hwaiting hblocked (RawText.toString?_eq_some_iff.1 hbuffer)
    · simp only [LogFile.append, hblocked, if_true]
      exact .refused hwaiting hblocked

/-- Nothing is left to wait by a batch. -/
theorem Holds.flush {j : Journal} {pending : List RawText} (h : j.Holds pending) (file : LogFile)
    (now : Int) : (j.flush file now).2.1.Holds [] := by
  have hflushing := flushing j file now
  generalize j.flush file now = outcome at hflushing ⊢
  cases hflushing with
  | idle hwaiting => exact h.eq_nil hwaiting ▸ h
  | refused | unwritable | written => exact ⟨rfl, rfl⟩

/-! ### Actions -/

/-- What a journal can be asked to do. -/
inductive Action where
  /-- To take a message of a level. -/
  | log (level : String) (category : Option String) (message : RawText)
  /-- To take an error message, and to count it. -/
  | logError (category : Option String) (message : RawText)
  | flush
deriving DecidableEq, Repr

namespace Action

/-- Asks a journal at a moment. -/
def perform (action : Action) (moment : LogTree.Moment) (j : Journal) (file : LogFile) :
    Except Failure Unit × Journal × LogFile :=
  match action with
  | log level category message => j.log file moment.stamp moment.now level category message
  | logError category message => j.logError file moment.stamp moment.now category message
  | flush => j.flush file moment.now

/-- The entry that an action makes. -/
def entry? (moment : LogTree.Moment) : Action → Option RawText
  | log level category message => some (entryText moment.stamp.time level category message)
  | logError category message => some (entryText moment.stamp.time "ERROR" category message)
  | flush => none

end Action

/-- Asks a journal for one thing after the other. -/
def play (j : Journal) (file : LogFile) :
    List (LogTree.Moment × Action) → List (Except Failure Unit) × Journal × LogFile
  | [] => ([], j, file)
  | (moment, action) :: asked =>
    let (answer, j, file) := action.perform moment j file
    let (answers, j, file) := j.play file asked
    (answer :: answers, j, file)

/-- The entries that a journal takes when it is asked. -/
def entries (asked : List (LogTree.Moment × Action)) : List RawText :=
  asked.filterMap fun (moment, action) ↦ action.entry? moment

/-- Writes a batch if one is due. -/
def settle (j : Journal) (file : LogFile) (now : Int) : Except Failure Unit × Journal × LogFile :=
  if j.isDue now then j.flush file now else (.ok (), j, file)

/-- Counts an error unless there was a failure. -/
def counted : Except Failure Unit × Journal × LogFile → Except Failure Unit × Journal × LogFile
  | (.ok (), j, file) => (.ok (), j.countError, file)
  | failed => failed

section

variable {j : Journal} {file file' : LogFile} {now : Int} {moment : LogTree.Moment}
  {action : Action} {asked : List (LogTree.Moment × Action)}

/-- Logging takes an entry and settles. -/
theorem log_eq_settle (j : Journal) (file : LogFile) (stamp : Stamp) (now : Int) (level : String)
    (category : Option String) (message : RawText) :
    j.log file stamp now level category message =
      (j.accept (entryText stamp.time level category message)).settle file now := rfl

theorem logError_eq_counted (j : Journal) (file : LogFile) (stamp : Stamp) (now : Int)
    (category : Option String) (message : RawText) :
    j.logError file stamp now category message =
      counted (j.log file stamp now "ERROR" category message) := rfl

theorem counted_fst (outcome : Except Failure Unit × Journal × LogFile) :
    (counted outcome).1 = outcome.1 := by
  rcases outcome with ⟨_ | _, j, file⟩ <;> rfl

theorem waiting_counted (outcome : Except Failure Unit × Journal × LogFile) :
    (counted outcome).2.1.waiting = outcome.2.1.waiting := by
  rcases outcome with ⟨_ | _, j, file⟩ <;> rfl

theorem buffer_counted (outcome : Except Failure Unit × Journal × LogFile) :
    (counted outcome).2.1.buffer = outcome.2.1.buffer := by
  rcases outcome with ⟨_ | _, j, file⟩ <;> rfl

theorem play_cons_fst (j : Journal) (file : LogFile) (head : LogTree.Moment × Action)
    (asked : List (LogTree.Moment × Action)) :
    (j.play file (head :: asked)).1 = (head.2.perform head.1 j file).1 ::
      ((head.2.perform head.1 j file).2.1.play (head.2.perform head.1 j file).2.2 asked).1 := rfl

theorem play_concat (j : Journal) (file : LogFile) (asked : List (LogTree.Moment × Action))
    (last : LogTree.Moment × Action) :
    (j.play file (asked ++ [last])).2 =
      (last.2.perform last.1 (j.play file asked).2.1 (j.play file asked).2.2).2 := by
  induction asked generalizing j file with
  | nil => rfl
  | cons head asked ih => exact ih _ _

/-- What taking an entry, writing a batch and counting keep, an action keeps. -/
theorem perform_induction {P : Journal → LogFile → Prop}
    (haccept : ∀ j file entry, P j file → P (j.accept entry) file)
    (hflush : ∀ j file now, P j file → P (j.flush file now).2.1 (j.flush file now).2.2)
    (hcount : ∀ j file, P j file → P j.countError file) (h : P j file) (action : Action)
    (moment : LogTree.Moment) :
    P (action.perform moment j file).2.1 (action.perform moment j file).2.2 := by
  have hsettle : ∀ j now, P j file → P (j.settle file now).2.1 (j.settle file now).2.2 := by
    intro j now hj
    rw [settle]
    split
    · exact hflush j file now hj
    · exact hj
  have hcounted : ∀ outcome : Except Failure Unit × Journal × LogFile,
      P outcome.2.1 outcome.2.2 → P (counted outcome).2.1 (counted outcome).2.2 := by
    rintro ⟨_ | _, j, file⟩ hj
    · exact hj
    · exact hcount j file hj
  cases action with
  | log level category message => exact hsettle _ _ (haccept j file _ h)
  | logError category message => exact hcounted _ (hsettle _ _ (haccept j file _ h))
  | flush => exact hflush j file moment.now h

/-- What an action keeps, a journal keeps however much it is asked. -/
theorem play_induction {P : Journal → LogFile → Prop}
    (hperform : ∀ (j : Journal) (file : LogFile) (moment : LogTree.Moment) (action : Action),
      P j file → P (action.perform moment j file).2.1 (action.perform moment j file).2.2)
    (h : P j file) (asked : List (LogTree.Moment × Action)) :
    P (j.play file asked).2.1 (j.play file asked).2.2 := by
  induction asked generalizing j file with
  | nil => exact h
  | cons head asked ih => exact ih (hperform j file head.1 head.2 h)

/-! ### What never changes -/

/-- A journal and its file are set up like others. -/
structure SetUpLike (j : Journal) (file : LogFile) (j' : Journal) (file' : LogFile) : Prop where
  path_eq : j'.path = j.path
  capacity_eq : j'.capacity = j.capacity
  blocked_eq : file'.blocked = file.blocked

theorem setUpLike_perform (action : Action) (moment : LogTree.Moment) (j : Journal)
    (file : LogFile) : SetUpLike j file (action.perform moment j file).2.1
      (action.perform moment j file).2.2 := by
  refine perform_induction (P := SetUpLike j file) (fun j' _ _ h ↦ ⟨h.1, h.2, h.3⟩)
    (fun j' file' now h ↦ ?_) (fun _ _ h ↦ ⟨h.1, h.2, h.3⟩) ⟨rfl, rfl, rfl⟩ action moment
  have hflushing := flushing j' file' now
  generalize j'.flush file' now = outcome at hflushing ⊢
  cases hflushing <;> exact ⟨h.1, h.2, h.3⟩

theorem setUpLike_play (j : Journal) (file : LogFile) (asked : List (LogTree.Moment × Action)) :
    SetUpLike j file (j.play file asked).2.1 (j.play file asked).2.2 := by
  refine play_induction (P := SetUpLike j file) (fun j' file' moment action h ↦ ?_)
    ⟨rfl, rfl, rfl⟩ asked
  have hperform := setUpLike_perform action moment j' file'
  exact ⟨hperform.1.trans h.1, hperform.2.trans h.2, hperform.3.trans h.3⟩

/-! ### The file does not matter -/

/-- Two outcomes are the same to the journal, whatever the files hold. -/
structure Alike (outcome outcome' : Except Failure Unit × Journal × LogFile) : Prop where
  answer_eq : outcome'.1 = outcome.1
  journal_eq : outcome'.2.1 = outcome.2.1
  blocked_eq : outcome'.2.2.blocked = outcome.2.2.blocked

theorem alike_flush (j : Journal) (now : Int) (h : file'.blocked = file.blocked) :
    Alike (j.flush file now) (j.flush file' now) := by
  rw [flush, flush]
  split
  · exact ⟨rfl, rfl, h⟩
  · rcases hblocked : file.blocked with _ | _
    · simp only [LogFile.append_eq_ok hblocked, LogFile.append_eq_ok (h.trans hblocked)]
      cases j.buffer.toString? <;> exact ⟨rfl, rfl, h⟩
    · simp only [LogFile.append, hblocked, h.trans hblocked, if_true]
      exact ⟨rfl, rfl, h⟩

theorem alike_settle (j : Journal) (now : Int) (h : file'.blocked = file.blocked) :
    Alike (j.settle file now) (j.settle file' now) := by
  rw [settle, settle]
  split
  · exact alike_flush j now h
  · exact ⟨rfl, rfl, h⟩

theorem Alike.counted {outcome outcome' : Except Failure Unit × Journal × LogFile}
    (h : Alike outcome outcome') :
    Alike (Journal.counted outcome) (Journal.counted outcome') := by
  obtain ⟨answer, j, file⟩ := outcome
  obtain ⟨answer', j', file'⟩ := outcome'
  obtain ⟨hanswer, hjournal, hblocked⟩ := h
  obtain rfl : answer' = answer := hanswer
  obtain rfl : j' = j := hjournal
  cases answer' <;> exact ⟨rfl, rfl, hblocked⟩

/-- A journal answers and becomes the same whatever its file holds. -/
theorem alike_perform (action : Action) (moment : LogTree.Moment) (j : Journal)
    (h : file'.blocked = file.blocked) :
    Alike (action.perform moment j file) (action.perform moment j file') := by
  cases action with
  | log level category message => exact alike_settle _ _ h
  | logError category message => exact (alike_settle _ _ h).counted
  | flush => exact alike_flush j moment.now h

/-! ### Where the messages are -/

/-- Where the entries are that a journal has taken: the first ones are lines in the file, after what
was there before, and the others wait, as lines of the buffer and counted. -/
structure Keeps (before : String) (taken : List RawText) (j : Journal) (file : LogFile) :
    Prop where
  blocked_eq : file.blocked = false
  messages_eq : j.messages = taken.length
  exists_lines : ∃ lines pending, file.content = some (before ++ joinLines lines) ∧
    j.Holds pending ∧ taken = lines.map .ofString ++ pending

variable {before : String} {taken : List RawText}

theorem Keeps.accept (h : Keeps before taken j file) (entry : RawText) :
    Keeps before (taken ++ [entry]) (j.accept entry) file := by
  obtain ⟨lines, pending, hcontent, hpending, htaken⟩ := h.exists_lines
  refine ⟨h.blocked_eq, ?_, lines, pending ++ [entry], hcontent, hpending.accept entry, ?_⟩
  · rw [messages_accept, h.messages_eq, List.length_append, List.length_singleton]
  · rw [htaken, List.append_assoc]

/-- A batch that does not fail goes to the end of the file. -/
theorem Keeps.flush (h : Keeps before taken j file) (hok : (j.flush file now).1 = .ok ()) :
    Keeps before taken (j.flush file now).2.1 (j.flush file now).2.2 := by
  have hflushing := flushing j file now
  generalize j.flush file now = outcome at hflushing hok ⊢
  cases hflushing with
  | idle => exact h
  | refused _ hblocked => exact absurd (h.blocked_eq.symm.trans hblocked) (by simp)
  | unwritable => exact absurd hok (by simp)
  | @written text _ _ hbuffer =>
    obtain ⟨lines, pending, hcontent, hpending, htaken⟩ := h.exists_lines
    obtain ⟨batch, rfl, rfl⟩ := exists_lines_of_rawLines (hpending.buffer_eq.symm.trans hbuffer)
    refine ⟨h.blocked_eq, h.messages_eq, lines ++ batch, [], ?_, ⟨rfl, rfl⟩, ?_⟩
    · show some (file.content.getD "" ++ joinLines batch) = _
      rw [hcontent, Option.getD_some, joinLines_append, String.append_assoc]
    · rw [htaken, List.map_append, List.append_nil]

theorem Keeps.settle (h : Keeps before taken j file) (hok : (j.settle file now).1 = .ok ()) :
    Keeps before taken (j.settle file now).2.1 (j.settle file now).2.2 := by
  rw [Journal.settle] at hok ⊢
  split
  · next hdue => exact h.flush (by rwa [if_pos hdue] at hok)
  · exact h

theorem Keeps.counted {outcome : Except Failure Unit × Journal × LogFile}
    (h : Keeps before taken outcome.2.1 outcome.2.2) :
    Keeps before taken (Journal.counted outcome).2.1 (Journal.counted outcome).2.2 := by
  rcases outcome with ⟨_ | _, j, file⟩
  · exact h
  · obtain ⟨lines, pending, hcontent, ⟨hbuffer, hwaiting⟩, htaken⟩ := h.exists_lines
    exact ⟨h.blocked_eq, h.messages_eq, lines, pending, hcontent, ⟨hbuffer, hwaiting⟩, htaken⟩

theorem Keeps.perform (h : Keeps before taken j file)
    (hok : (action.perform moment j file).1 = .ok ()) :
    Keeps before (taken ++ (action.entry? moment).toList) (action.perform moment j file).2.1
      (action.perform moment j file).2.2 := by
  cases action with
  | log level category message => exact (h.accept _).settle hok
  | logError category message =>
    rw [Action.perform, logError_eq_counted, counted_fst, log_eq_settle] at hok
    exact ((h.accept _).settle hok).counted
  | flush =>
    rw [Action.entry?, Option.toList_none, List.append_nil]
    exact h.flush hok

theorem entries_cons (moment : LogTree.Moment) (action : Action)
    (asked : List (LogTree.Moment × Action)) :
    entries ((moment, action) :: asked) = (action.entry? moment).toList ++ entries asked := by
  rw [entries, List.filterMap_cons]
  cases action <;> rfl

/-- **A journal loses, repeats and reorders nothing**, as long as writing does not fail. -/
theorem Keeps.play (h : Keeps before taken j file)
    (hok : ∀ answer ∈ (j.play file asked).1, answer = .ok ()) :
    Keeps before (taken ++ entries asked) (j.play file asked).2.1 (j.play file asked).2.2 := by
  -- The entries of the first action count as taken before for the others.
  induction asked generalizing j file taken with
  | nil =>
    rw [show entries [] = [] from rfl, List.append_nil]
    exact h
  | cons head asked ih =>
    obtain ⟨hhead, hrest⟩ := List.forall_mem_cons.1 hok
    have hkeeps := ih (h.perform hhead) hrest
    rwa [List.append_assoc, ← entries_cons] at hkeeps

/-! ### How many messages wait -/

/-- What waits can be written. -/
def IsWritable (j : Journal) : Prop := j.buffer.isWritable = true

theorem flush_fst_of_isWritable (h : j.IsWritable) : (j.flush file now).1 = .ok () := by
  have hflushing := flushing j file now
  generalize j.flush file now = outcome at hflushing ⊢
  cases hflushing with
  | unwritable _ _ hbuffer => exact absurd (h.symm.trans hbuffer) (by simp)
  | idle | refused | written => rfl

/-- What waits of proper texts are proper texts. -/
theorem Keeps.isWritable (h : Keeps before taken j file)
    (htaken : ∀ entry ∈ taken, entry.isWritable = true) : j.IsWritable := by
  obtain ⟨lines, pending, -, hpending, rfl⟩ := h.exists_lines
  rw [IsWritable, hpending.buffer_eq, isWritable_rawLines, List.all_eq_true]
  exact fun entry hentry ↦ htaken entry (List.mem_append_right _ hentry)

theorem IsWritable.flush (h : j.IsWritable) (file : LogFile) (now : Int) :
    (j.flush file now).2.1.IsWritable := by
  have hflushing := flushing j file now
  generalize j.flush file now = outcome at hflushing ⊢
  cases hflushing with
  | idle => exact h
  | refused | unwritable | written => rfl

theorem IsWritable.settle (h : j.IsWritable) (file : LogFile) (now : Int) :
    (j.settle file now).1 = .ok () ∧ (j.settle file now).2.1.IsWritable := by
  rw [Journal.settle]
  split
  · exact ⟨flush_fst_of_isWritable h, h.flush file now⟩
  · exact ⟨rfl, h⟩

theorem IsWritable.accept (h : j.IsWritable) {entry : RawText} (hentry : entry.isWritable = true) :
    (j.accept entry).IsWritable := by
  rw [IsWritable, buffer_accept, RawText.isWritable_append, h, line, RawText.isWritable_append,
    hentry, RawText.isWritable_ofString]
  rfl

theorem IsWritable.perform (h : j.IsWritable) (file : LogFile)
    (hentry : ∀ entry ∈ action.entry? moment, entry.isWritable = true) :
    (action.perform moment j file).1 = .ok () ∧ (action.perform moment j file).2.1.IsWritable := by
  cases action with
  | log level category message => exact (h.accept (hentry _ rfl)).settle file moment.now
  | logError category message =>
    obtain ⟨hok, hwritable⟩ := (h.accept (hentry _ rfl)).settle file moment.now
    rw [Action.perform, logError_eq_counted, log_eq_settle, counted_fst, IsWritable,
      buffer_counted]
    exact ⟨hok, hwritable⟩
  | flush => exact ⟨flush_fst_of_isWritable h, h.flush file moment.now⟩

end

end Journal

end Metrology
