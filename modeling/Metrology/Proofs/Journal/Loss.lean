import Mathlib.Data.List.Forall2
import Metrology.Proofs.Journal.Run

/-!
# Batches that are lost

What becomes of the messages of a journal when writing fails now and then, in any run of a tree of
loggers.

The entries that a journal takes are, in their order, those of the batches that it has tried to
write (`LogTree.batches`), and then those that wait. A batch comes into the file whole, as its
lines, in the turn that tries to write it; if that fails, it never does. So the messages that wait
at a batch that fails are lost, and no others are (`batches_written_or_lost`).
-/

namespace Metrology.LogTree

open Journal (Turn)

variable {pending : List RawText} {turns : List Turn}

/-! ### Batches -/

/-- The batches of turns when some entries waited at first, one for each turn. Most have no entries.
-/
def batches (pending : List RawText) : List Turn → List (List RawText)
  | [] => []
  | turn :: turns => turn.batch pending :: batches (turn.left pending) turns

theorem batches_concat (pending : List RawText) (turns : List Turn) (turn : Turn) :
    batches pending (turns ++ [turn]) =
      batches pending turns ++ [turn.batch (remaining pending turns)] := by
  induction turns generalizing pending with
  | nil => rfl
  | cons head turns ih => exact congrArg (List.cons _) (ih _)

/-- The entries that are taken are written or given up in their order, and the others wait. -/
theorem flatten_batches_append_remaining (pending : List RawText) (turns : List Turn) :
    (batches pending turns).flatten ++ remaining pending turns =
      pending ++ turns.filterMap Turn.entry? := by
  induction turns generalizing pending with
  | nil => exact (List.append_nil pending).symm
  | cons turn turns ih =>
    have hentry : (turn :: turns).filterMap Turn.entry? =
        turn.entry?.toList ++ turns.filterMap Turn.entry? := by
      rw [List.filterMap_cons]
      cases turn.entry? <;> rfl
    calc (batches pending (turn :: turns)).flatten ++ remaining pending (turn :: turns)
        = turn.batch pending ++
            ((batches (turn.left pending) turns).flatten ++ remaining (turn.left pending) turns) :=
          List.append_assoc _ _ _
      _ = turn.batch pending ++ turn.left pending ++ turns.filterMap Turn.entry? := by
          rw [ih, List.append_assoc]
      _ = pending ++ (turn :: turns).filterMap Turn.entry? := by
          rw [turn.batch_append_left, hentry, List.append_assoc]

/-- What comes into the file in a turn are the lines of its batch, or nothing if that fails. -/
def WritesOrLoses (turn : Turn) (batch : List RawText) : Prop :=
  ∃ lines, turn.fileAfter.text = turn.file.text ++ joinLines lines ∧
    turn.appended = joinLines lines ∧ lines.map .ofString = if turn.isFailed then [] else batch

theorem writesOrLoses (turn : Turn) (h : turn.journal.Holds pending) :
    WritesOrLoses turn (turn.batch pending) := by
  obtain ⟨lines, happended, hlines⟩ := Turn.exists_lines h
  exact ⟨lines, happended ▸ turn.text_fileAfter, happended, hlines⟩

/-- In each turn of a journal that holds some entries its batch is written or lost. -/
theorem persists_batches (pending : List RawText) : Persists fun turns j ↦
    j.Holds (remaining pending turns) ∧
      List.Forall₂ WritesOrLoses turns (batches pending turns) where
  turn turns turn h := by
    rw [remaining_concat, batches_concat]
    exact ⟨Turn.holds_left h.1,
      List.rel_append h.2 (.cons (writesOrLoses turn h.1) .nil)⟩
  fresh turns _ _ _ _ h := ⟨⟨h.1.buffer_eq, h.1.waiting_eq⟩, h.2⟩

/-- What a journal writes are the lines of the batches that do not fail. -/
theorem exists_lines_appendedIn {batches : List (List RawText)}
    (h : List.Forall₂ WritesOrLoses turns batches) : ∃ lines, appendedIn turns = joinLines lines ∧
      lines.map .ofString = ((turns.zip batches).filter (!·.1.isFailed)).flatMap Prod.snd := by
  induction h with
  | nil => exact ⟨[], rfl, rfl⟩
  | @cons turn batch turns batches hturn _ ih =>
    obtain ⟨lines, -, happended, hlines⟩ := hturn
    obtain ⟨later, hlater, hbatches⟩ := ih
    refine ⟨lines ++ later, ?_, ?_⟩
    · rw [joinLines_append, ← happended, ← hlater]
      exact String.join_cons
    · rw [List.map_append, hlines, hbatches, List.zip_cons_cons, List.filter_cons]
      cases turn.isFailed <;> simp

/-- What a journal writes in a run, told from the batches that do not fail. -/
theorem appendedIn_eq_joinLines {t : LogTree} {n : Nat} (hpending : (t.journal n).Holds pending)
    {occurrences : List Occurrence} {texts : List String}
    (h : (((t.turns n occurrences).zip (batches pending (t.turns n occurrences))).filter
      (!·.1.isFailed)).flatMap Prod.snd = texts.map .ofString) :
    appendedIn (t.turns n occurrences) = joinLines texts := by
  obtain ⟨lines, happended, hlines⟩ := exists_lines_appendedIn
    ((persists_batches pending).undergo_all ⟨hpending, .nil⟩ occurrences).2
  rw [happended, List.map_injective_iff.2 RawText.ofString_injective (hlines.trans h)]

/-- **A batch that fails is lost, and nothing else is.** Whatever happens to a tree, the entries
that wait at the start and those that a journal takes are, in their order, those of the batches of
its turns, and then those that wait at the end. In each turn its file gets the lines of the batch at
its end, or nothing if that fails. So what the journal writes in all its turns are the lines of the
batches that did not fail, each once and in order, and the entries of the others are never written.
-/
theorem batches_written_or_lost (t : LogTree) (n : Nat) (hpending : (t.journal n).Holds pending)
    (occurrences : List Occurrence) :
    let turns := t.turns n occurrences
    let batches := batches pending turns
    let left := remaining pending turns
    pending ++ turns.filterMap Turn.entry? = batches.flatten ++ left ∧
      ((t.undergo occurrences).journal n).Holds left ∧
      List.Forall₂ WritesOrLoses turns batches ∧
      ∃ lines, appendedIn turns = joinLines lines ∧
        lines.map .ofString = ((turns.zip batches).filter (!·.1.isFailed)).flatMap Prod.snd := by
  intro turns batches left
  obtain ⟨hholds, hturns⟩ :=
    (persists_batches pending).undergo_all ⟨hpending, .nil⟩ occurrences
  exact ⟨(flatten_batches_append_remaining pending turns).symm, hholds, hturns,
    exists_lines_appendedIn hturns⟩

/-- The first of two messages waits while the file is blocked. -/
def sampleRefusal : List Occurrence :=
  let ask (event : Event) : Occurrence := .asked { stamp := ⟨"", "", ""⟩ } event
  let block (blocked : Bool) : Occurrence := .disturbed "a.log" fun f ↦ { f with blocked }
  [ask (.openJournal "a.log" false 1000 3600000),
    ask (.ask 0 (.log "INFO" none (.ofString "one"))), block true, ask (.ask 0 .flush), block false,
    ask (.ask 0 (.log "INFO" none (.ofString "two"))), ask (.ask 0 .flush)]

/-- The message that waits when a batch is refused is lost, and the next one is written. -/
theorem batches_written_or_lost_refusal :
    let turns := ({} : LogTree).turns 0 sampleRefusal
    (({} : LogTree).journal 0).Holds [] ∧ batches [] turns =
        [[], [" INFO    - one"], [], [" INFO    - two"]].map (·.map .ofString) ∧
      List.Forall₂ WritesOrLoses turns (batches [] turns) := by
  intro turns
  have hnothing : (({} : LogTree).journal 0).Holds [] := ⟨rfl, rfl⟩
  exact ⟨hnothing, by decide, (batches_written_or_lost {} 0 hnothing sampleRefusal).2.2.1⟩

/-- A message that waits when a batch is refused is not in the next batch that is written. -/
theorem refused_message_unwritten :
    let turns := ({} : LogTree).turns 0 sampleRefusal
    let later := ({} : LogTree).undergo sampleRefusal
    turns.filterMap Turn.entry? = [" INFO    - one", " INFO    - two"].map .ofString ∧
      turns.map Turn.isFailed = [false, true, false, false] ∧
      (later.journal 0).Holds [] ∧
      (later.file "a.log").text = headerText ⟨"", "", ""⟩ "a.log" ++ " INFO    - two\n" := by
  refine ⟨by decide, by decide, ⟨rfl, rfl⟩, ?_⟩
  rfl

end Metrology.LogTree
