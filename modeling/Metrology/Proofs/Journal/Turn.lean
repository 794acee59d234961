import Metrology.Proofs.Journal.Action

/-!
# Turns of a journal

A `Journal.Turn` is one thing asked of a journal, with the journal and its file as they are found.
What comes of it is told by what can be seen before and after: whether messages wait no longer
(`Turn.isBatch`), and the text by which the file has become longer (`Turn.appended`).

There are four ways in which a turn can end (`Turn.ending`), and all that is said of turns is read
off them. A batch is written whole, or it is given up whole: when the file is blocked, or when half
a surrogate pair is in it. Either way nothing of it waits any longer.

Which entries a batch has is not seen in the journal, where they are lines of one text. It is told
from the entries that waited before (`Turn.batch`), as long as the journal holds these.
-/

namespace Metrology

theorem joinLines_ne_empty {lines : List String} (h : lines ≠ []) : joinLines lines ≠ "" := by
  cases lines with
  | nil => exact absurd rfl h
  | cons line lines =>
    intro hempty
    have hlength := congrArg String.length hempty
    rw [joinLines, List.map_cons, String.join_cons, String.length_append, String.length_append]
      at hlength
    have hend : "\n".length = 1 := rfl
    have hnothing : "".length = 0 := rfl
    omega

namespace LogFile

/-- What can be read in the file. One that does not exist is as good as empty. -/
def text (f : LogFile) : String := f.content.getD ""

end LogFile

namespace Journal

namespace Action

/-- The action is to take an error message, and to count it. -/
def isErrorCall : Action → Bool
  | logError .. => true
  | log .. | flush => false

/-- The level of the message that is to be taken. -/
def level? : Action → Option String
  | log level .. => some level
  | logError .. => some "ERROR"
  | flush => none

end Action

/-- One thing asked of a journal, with the journal and its file as they are at that moment. -/
structure Turn where
  moment : LogTree.Moment
  action : Action
  journal : Journal
  file : LogFile

namespace Turn

variable (turn : Turn)

/-! ### Before and after -/

def outcome : Except Failure Unit × Journal × LogFile :=
  turn.action.perform turn.moment turn.journal turn.file

def answer : Except Failure Unit := turn.outcome.1

/-- The journal after the turn. -/
def after : Journal := turn.outcome.2.1

def fileAfter : LogFile := turn.outcome.2.2

/-- The entry that is made. -/
def entry? : Option RawText := turn.action.entry? turn.moment

/-- How many messages wait when the turn's own has been taken. -/
def waiting : Nat := turn.journal.waiting + turn.entry?.toList.length

/-- Messages that waited wait no longer after the turn. -/
def isBatch : Bool := turn.waiting != 0 && turn.after.waiting == 0

/-- The entries that wait no longer after the turn, of those that waited before and the turn's own.
-/
def batch (pending : List RawText) : List RawText :=
  if turn.after.waiting = 0 then pending ++ turn.entry?.toList else []

/-- The entries that wait after the turn. -/
def left (pending : List RawText) : List RawText :=
  if turn.after.waiting = 0 then [] else pending ++ turn.entry?.toList

/-- Entries are written or given up in the order in which they are made. -/
theorem batch_append_left (pending : List RawText) :
    turn.batch pending ++ turn.left pending = pending ++ turn.entry?.toList := by
  rw [batch, left]
  split
  · exact List.append_nil _
  · exact List.nil_append _

/-- The text by which the file has become longer. -/
def appended : String :=
  .ofList (turn.fileAfter.text.toList.drop turn.file.text.length)

/-- The file was not blocked, and what was to be written can be. -/
def isSound : Bool := !turn.file.blocked && turn.answer.isOk

/-- A batch was given up. -/
def isFailed : Bool := turn.isBatch && !turn.isSound

/-- A batch was given up because the file was blocked. -/
def isRefused : Bool := turn.isBatch && turn.file.blocked

/-- A batch was written. -/
def isWritten : Bool := turn.isBatch && turn.isSound

/-- The message has the level of errors. -/
def isError : Bool := turn.action.level? == some "ERROR"

/-- The message was an error to be counted, and nothing failed. -/
def isErrorCounted : Bool := turn.action.isErrorCall && turn.answer.isOk

theorem isFailed_of_isRefused (h : turn.isRefused = true) : turn.isFailed = true := by
  rw [isRefused, Bool.and_eq_true] at h
  rw [isFailed, isSound, h.1, h.2]
  rfl

theorem isError_of_isErrorCounted (h : turn.isErrorCounted = true) : turn.isError = true := by
  rw [isErrorCounted, Bool.and_eq_true] at h
  rw [isError]
  cases haction : turn.action with
  | log | flush => exact absurd h.1 (by simp [haction, Action.isErrorCall])
  | logError => rfl

/-! ### How a turn ends -/

/-- The journal with the turn's entry taken. -/
def taken : Journal := turn.entry?.elim turn.journal turn.journal.accept

theorem waiting_taken : turn.taken.waiting = turn.waiting := by
  rw [taken, waiting]
  cases turn.entry? <;> rfl

theorem holds_taken {pending : List RawText} (h : turn.journal.Holds pending) :
    turn.taken.Holds (pending ++ turn.entry?.toList) := by
  rw [taken]
  cases turn.entry? with
  | none => exact (List.append_nil pending).symm ▸ h
  | some entry => exact h.accept entry

/-- The number of errors after the turn, if those that a batch brings are a given number and nothing
fails. -/
def errorsAfter (brought : Nat) : Nat :=
  turn.journal.errors + brought + if turn.action.isErrorCall then 1 else 0

/-- What a turn can end in, each with its conditions and with what comes into the file. -/
inductive Ending : Except Failure Unit × Journal × LogFile → Prop where
  /-- No batch is due, or there is nothing to write. -/
  | waits (hbatch : turn.isBatch = false) (happended : turn.appended = "") :
      Ending (.ok (), { turn.taken with errors := turn.errorsAfter 0 }, turn.file)
  /-- The batch is given up. -/
  | refused (hblocked : turn.file.blocked = true) (hbatch : turn.isBatch = true)
      (happended : turn.appended = "") :
      Ending (.ok (), { turn.taken.emptied turn.moment.now with errors := turn.errorsAfter 1 },
        turn.file)
  /-- Half a surrogate pair was to be written. -/
  | unwritable (hblocked : turn.file.blocked = false) (hbatch : turn.isBatch = true)
      (hbuffer : turn.taken.buffer.isWritable = false) (happended : turn.appended = "") :
      Ending (.error .unwritableText, turn.taken.emptied turn.moment.now, turn.file.extended "")
  | written {text : String} (hblocked : turn.file.blocked = false) (hbatch : turn.isBatch = true)
      (hbuffer : turn.taken.buffer = .ofString text) (happended : turn.appended = text) :
      Ending (.ok (), { turn.taken.emptied turn.moment.now with
          written := turn.taken.written + text.length
          flushes := turn.taken.flushes + 1
          errors := turn.errorsAfter 0 },
        turn.file.extended text)

/-- Counts an error at the end of the turn, if the action is to do so. -/
def finished (outcome : Except Failure Unit × Journal × LogFile) :
    Except Failure Unit × Journal × LogFile :=
  if turn.action.isErrorCall then counted outcome else outcome

theorem waiting_finished (outcome : Except Failure Unit × Journal × LogFile) :
    (turn.finished outcome).2.1.waiting = outcome.2.1.waiting := by
  rw [finished]
  split
  · exact waiting_counted outcome
  · rfl

theorem finished_ok {j : Journal} (brought : Nat) (h : j.errors = turn.journal.errors + brought)
    (file : LogFile) :
    turn.finished (.ok (), j, file) =
      (.ok (), { j with errors := turn.errorsAfter brought }, file) := by
  rw [finished, errorsAfter, ← h]
  split <;> rfl

theorem finished_error (e : Failure) (j : Journal) (file : LogFile) :
    turn.finished (.error e, j, file) = (.error e, j, file) := by
  rw [finished]
  split <;> rfl

theorem errors_taken : turn.taken.errors = turn.journal.errors := by
  rw [taken]
  cases turn.entry? <;> rfl

/-- A turn takes its entry, then it may flush, and at last it counts. -/
theorem outcome_eq :
    turn.outcome = turn.finished (.ok (), turn.taken, turn.file) ∧ turn.waiting ≠ 0 ∨
      turn.outcome = turn.finished (turn.taken.flush turn.file turn.moment.now) := by
  have hsettle : (turn.taken.settle turn.file turn.moment.now = (.ok (), turn.taken, turn.file)) ∨
      turn.taken.settle turn.file turn.moment.now =
        turn.taken.flush turn.file turn.moment.now := by
    rw [settle]
    split
    · exact .inr rfl
    · exact .inl rfl
  obtain ⟨moment, action, j, file⟩ := turn
  cases action with
  | log level category message => exact hsettle.imp (fun h ↦ ⟨h, Nat.succ_ne_zero _⟩) id
  | logError category message =>
    rcases hsettle with h | h <;> replace h := congrArg counted h
    · exact .inl ⟨h, Nat.succ_ne_zero _⟩
    · exact .inr h
  | flush => exact .inr rfl

/-- What a turn writes at the end of the file is what the file has become longer by. -/
theorem appended_eq {answer : Except Failure Unit} {j : Journal} {file : LogFile} {text : String}
    (houtcome : turn.outcome = (answer, j, file)) (hfile : file.text = turn.file.text ++ text) :
    turn.appended = text := by
  rw [appended, fileAfter, houtcome, hfile, String.toList_append, ← String.length_toList,
    List.drop_left, String.ofList_toList]

theorem ending : Ending turn turn.outcome := by
  rcases turn.outcome_eq with ⟨houtcome, hwaiting⟩ | houtcome
  · have hbatch : turn.isBatch = false := by
      rw [isBatch, after, houtcome, waiting_finished, waiting_taken]
      simp [hwaiting]
    rw [turn.finished_ok 0 turn.errors_taken] at houtcome
    exact houtcome ▸ .waits hbatch (turn.appended_eq houtcome String.append_empty.symm)
  · have hbatch : turn.isBatch = (turn.taken.waiting != 0) := by
      rw [isBatch, after, houtcome, waiting_finished, waiting_flush, waiting_taken]
      exact Bool.and_true _
    have hflushing := flushing turn.taken turn.file turn.moment.now
    generalize turn.taken.flush turn.file turn.moment.now = flushed at hflushing houtcome
    cases hflushing with
    | idle hwaiting =>
      rw [turn.finished_ok 0 turn.errors_taken] at houtcome
      exact houtcome ▸ .waits (hbatch.trans (by simp [hwaiting]))
        (turn.appended_eq houtcome String.append_empty.symm)
    | refused hwaiting hblocked =>
      rw [turn.finished_ok 1 (congrArg (· + 1) turn.errors_taken)] at houtcome
      exact houtcome ▸ .refused hblocked (hbatch.trans (by simp [hwaiting]))
        (turn.appended_eq houtcome String.append_empty.symm)
    | unwritable hwaiting hblocked hbuffer =>
      rw [finished_error] at houtcome
      exact houtcome ▸ .unwritable hblocked (hbatch.trans (by simp [hwaiting])) hbuffer
        (turn.appended_eq houtcome rfl)
    | written hwaiting hblocked hbuffer =>
      rw [turn.finished_ok 0] at houtcome
      · exact houtcome ▸ .written hblocked (hbatch.trans (by simp [hwaiting])) hbuffer
          (turn.appended_eq houtcome rfl)
      · exact turn.errors_taken

/-! ### What comes of it -/

theorem messages_after :
    turn.after.messages = turn.journal.messages + turn.entry?.toList.length := by
  have htaken : turn.taken.messages = turn.journal.messages + turn.entry?.toList.length := by
    rw [taken]
    cases turn.entry? <;> rfl
  have hending := turn.ending
  rw [after]
  generalize turn.outcome = outcome at hending ⊢
  cases hending <;> exact htaken

/-- What is counted as written are the characters that come into the file. -/
theorem written_after : turn.after.written = turn.journal.written + turn.appended.length := by
  have htaken : turn.taken.written = turn.journal.written := by
    rw [taken]
    cases turn.entry? <;> rfl
  have hending := turn.ending
  rw [after]
  generalize turn.outcome = outcome at hending ⊢
  cases hending with
  | waits _ happended | refused _ _ happended | unwritable _ _ _ happended =>
    rw [happended]
    exact htaken
  | written _ _ _ happended => rw [happended, ← htaken]

/-- A batch is counted when it is written. -/
theorem flushes_after : turn.after.flushes =
    turn.journal.flushes + if turn.isWritten then 1 else 0 := by
  have htaken : turn.taken.flushes = turn.journal.flushes := by
    rw [taken]
    cases turn.entry? <;> rfl
  have hending := turn.ending
  rw [after, isWritten, isSound, answer]
  generalize turn.outcome = outcome at hending ⊢
  cases hending with
  | waits hbatch => simp [hbatch, htaken]
  | refused hblocked => simp [hblocked, htaken, emptied]
  | unwritable hblocked => simp [hblocked, htaken, emptied, Except.isOk, Except.toBool]
  | written hblocked hbatch => simp [hblocked, hbatch, htaken, Except.isOk, Except.toBool]

/-- An error is counted for each batch that the file refuses, and for each error message that was to
be counted unless the turn fails. -/
theorem errors_after : turn.after.errors = turn.journal.errors +
    (if turn.isRefused then 1 else 0) + if turn.isErrorCounted then 1 else 0 := by
  have hending := turn.ending
  rw [after, isErrorCounted, answer, isRefused]
  generalize turn.outcome = outcome at hending ⊢
  cases hending with
  | waits hbatch => simp [hbatch, errorsAfter, Except.isOk, Except.toBool]
  | refused hblocked hbatch => simp [hblocked, hbatch, errorsAfter, Except.isOk, Except.toBool]
  | unwritable hblocked =>
    simp [hblocked, Except.isOk, Except.toBool, emptied, errors_taken]
  | written hblocked => simp [hblocked, errorsAfter, Except.isOk, Except.toBool]

section

variable {turn} {pending : List RawText} (h : turn.journal.Holds pending)

include h

theorem length_pending : (pending ++ turn.entry?.toList).length = turn.waiting := by
  rw [List.length_append, waiting, h.waiting_eq]

/-- The journal goes on holding what waits. -/
theorem holds_left : turn.after.Holds (turn.left pending) := by
  have htaken := turn.holds_taken h
  have hempty : turn.after.Holds [] → turn.after.Holds (turn.left pending) := by
    intro hnone
    have hwaiting : turn.after.waiting = 0 := hnone.waiting_eq
    rwa [left, if_pos hwaiting]
  have hending := turn.ending
  rw [left, after] at hempty ⊢
  generalize turn.outcome = outcome at hending hempty ⊢
  cases hending with
  | waits =>
    split
    · next hnone => exact htaken.eq_nil hnone ▸ ⟨htaken.buffer_eq, htaken.waiting_eq⟩
    · exact ⟨htaken.buffer_eq, htaken.waiting_eq⟩
  | refused | unwritable | written => exact hempty ⟨rfl, rfl⟩

/-- Without a batch no entries leave. -/
theorem batch_eq_nil (hnone : turn.isBatch = false) : turn.batch pending = [] := by
  rw [isBatch, Bool.and_eq_false_iff, bne_eq_false_iff_eq, ← length_pending h] at hnone
  rw [batch]
  split
  · next hafter => exact List.eq_nil_of_length_eq_zero (hnone.resolve_right (by simp [hafter]))
  · rfl

/-- A batch has entries. -/
theorem batch_ne_nil (hbatch : turn.isBatch = true) : turn.batch pending ≠ [] := by
  rw [isBatch, Bool.and_eq_true, bne_iff_ne, beq_iff_eq, ← length_pending h] at hbatch
  rw [batch, if_pos hbatch.2]
  exact fun hnil ↦ hbatch.1 (congrArg List.length hnil)

/-- A batch comes into the file as its lines, or not at all if it fails. -/
theorem exists_lines : ∃ lines, turn.appended = joinLines lines ∧
    lines.map .ofString = if turn.isFailed then [] else turn.batch pending := by
  have hbatch : turn.isBatch = true → turn.batch pending = pending ++ turn.entry?.toList := by
    intro hbatch
    rw [isBatch, Bool.and_eq_true, beq_iff_eq] at hbatch
    rw [batch, if_pos hbatch.2]
  have htaken := (turn.holds_taken h).buffer_eq
  have hending := turn.ending
  rw [isFailed, isSound, answer]
  generalize turn.outcome = outcome at hending ⊢
  cases hending with
  | waits hnone happended =>
    rw [batch_eq_nil h hnone, ite_self]
    exact ⟨[], happended, rfl⟩
  | refused hblocked hdue happended => exact ⟨[], happended, by simp [hblocked, hdue]⟩
  | unwritable hblocked hdue _ happended =>
    exact ⟨[], happended, by simp [hblocked, hdue, Except.isOk, Except.toBool]⟩
  | written hblocked hdue hbuffer happended =>
    obtain ⟨lines, hlines, rfl⟩ := exists_lines_of_rawLines (htaken.symm.trans hbuffer)
    exact ⟨lines, happended, by simp [hblocked, hbatch hdue, hlines, Except.isOk, Except.toBool]⟩

/-- The file becomes longer in a turn just if a batch is written. -/
theorem isWritten_iff : turn.isWritten = true ↔ turn.appended ≠ "" := by
  obtain ⟨lines, happended, hlines⟩ := exists_lines h
  rw [happended, isWritten]
  rw [isFailed] at hlines
  rcases hdue : turn.isBatch with _ | _
  · rw [batch_eq_nil h hdue, ite_self, List.map_eq_nil_iff] at hlines
    rw [hlines]
    exact iff_of_false (by simp) fun hne ↦ hne rfl
  · rcases hsound : turn.isSound with _ | _
    · rw [hdue, hsound, if_pos (by simp), List.map_eq_nil_iff] at hlines
      rw [hlines]
      exact iff_of_false (by simp) fun hne ↦ hne rfl
    · rw [hdue, hsound, if_neg (by simp)] at hlines
      refine iff_of_true (by simp) (joinLines_ne_empty fun hnone ↦ batch_ne_nil h hdue ?_)
      rw [← hlines, hnone, List.map_nil]

/-- A batch of proper texts comes into a file that is not blocked. -/
theorem appended_of_batch (texts : List String) (hblocked : turn.file.blocked = false)
    (hbatch : turn.batch pending = texts.map .ofString) : turn.appended = joinLines texts := by
  have hwritable : turn.isBatch = true → turn.taken.buffer = .ofString (joinLines texts) := by
    intro hdue
    rw [isBatch, Bool.and_eq_true, beq_iff_eq] at hdue
    rw [batch, if_pos hdue.2] at hbatch
    rw [(turn.holds_taken h).buffer_eq, hbatch, rawLines_map_ofString]
  have hending := turn.ending
  generalize turn.outcome = outcome at hending
  cases hending with
  | waits hnone happended =>
    rw [batch_eq_nil h hnone] at hbatch
    rw [happended, List.map_eq_nil_iff.1 hbatch.symm]
    rfl
  | refused hrefused => exact absurd (hblocked.symm.trans hrefused) (by simp)
  | unwritable _ hdue hbuffer =>
    rw [hwritable hdue, RawText.isWritable_ofString] at hbuffer
    exact absurd hbuffer (by simp)
  | written _ hdue hbuffer happended =>
    rw [happended]
    exact RawText.ofString_injective (hbuffer.symm.trans (hwritable hdue))

end

/-- The file is longer by what was added. -/
theorem text_fileAfter : turn.fileAfter.text = turn.file.text ++ turn.appended := by
  have hending := turn.ending
  rw [fileAfter]
  generalize turn.outcome = outcome at hending ⊢
  cases hending with
  | waits _ happended | refused _ _ happended =>
    rw [happended, String.append_empty]
  | unwritable _ _ _ happended | written _ _ _ happended =>
    rw [happended]
    rfl

end Turn

end Journal

end Metrology
