import Metrology.Proofs.Journal.Loss

/-!
# The statistics of journals

What the counters of a journal tell of a run of a tree of loggers, whatever is asked of it and
whatever others do to its files. A counter that goes up in each turn of the journal by what is
counted of that turn has gone up in a run by what is counted of all its turns (`Counts.undergo`).

Messages and batches are counted as they come. What is counted as written are characters, which are
as many as the bytes if there are none beyond the first 128, and else fewer (`statistics_counted`).
An error is counted for each batch that a blocked file refuses, and for each error message that was
to be counted, if nothing failed with it. Error messages that are logged in another way are not
counted, nor is a batch that cannot be written because of what it says (`errors_counted`).
-/

namespace Metrology.LogTree

open Journal (Turn)

/-! ### Counters -/

/-- A counter of journals that begins at nothing, and goes up in each turn by what is counted of it.
-/
structure Counts (counter : Journal → Nat) (total : List Turn → Nat) : Prop where
  fresh : ∀ path capacity interval now, counter (.fresh path capacity interval now) = 0
  append : ∀ turns turns', total (turns ++ turns') = total turns + total turns'
  after : ∀ turn : Turn, counter turn.after = counter turn.journal + total [turn]

/-- **A counter that each turn brings forward tells of the whole run.** -/
theorem Counts.undergo {counter : Journal → Nat} {total : List Turn → Nat}
    (h : Counts counter total) (t : LogTree) (n : Nat) (occurrences : List Occurrence) :
    counter ((t.undergo occurrences).journal n) =
      counter (t.journal n) + total (t.turns n occurrences) := by
  have hpersists : Persists fun turns j ↦ counter j = counter (t.journal n) + total turns := by
    refine ⟨fun turns turn hturns ↦ ?_, fun turns _ _ _ _ hturns ↦ ?_⟩
    · rw [h.after, hturns, h.append, Nat.add_assoc]
    · rwa [h.fresh] at hturns ⊢
  have hnil : total [] = 0 := by
    have happend := h.append [] []
    rw [List.append_nil] at happend
    omega
  have hstart : counter (t.journal n) = counter (t.journal n) + total [] := by rw [hnil]; rfl
  exact hpersists.undergo hstart occurrences

/-! ### Messages and batches -/

theorem counts_messages :
    Counts Journal.messages fun turns ↦ (turns.filterMap Turn.entry?).length where
  fresh _ _ _ _ := rfl
  append turns turns' := by rw [List.filterMap_append, List.length_append]
  after turn := by
    rw [turn.messages_after, List.filterMap_cons]
    cases turn.entry? <;> rfl

theorem counts_flushes : Counts Journal.flushes fun turns ↦ turns.countP Turn.isWritten where
  fresh _ _ _ _ := rfl
  append _ _ := List.countP_append
  after turn := by rw [turn.flushes_after, List.countP_singleton]

theorem counts_written : Counts Journal.written fun turns ↦ (appendedIn turns).length where
  fresh _ _ _ _ := rfl
  append turns turns' := by rw [appendedIn_append, String.length_append]
  after turn := by rw [turn.written_after, appendedIn_singleton]

theorem counts_errors : Counts Journal.errors fun turns ↦
    turns.countP Turn.isRefused + turns.countP Turn.isErrorCounted where
  fresh _ _ _ _ := rfl
  append turns turns' := by
    rw [List.countP_append, List.countP_append]
    omega
  after turn := by
    rw [turn.errors_after, List.countP_singleton, List.countP_singleton, Nat.add_assoc]

/-- A text has at least as many bytes as characters, and more if one is beyond the first 128. -/
theorem length_le_utf8ByteSize (text : String) : text.length ≤ text.utf8ByteSize ∧
    (text.length = text.utf8ByteSize ↔ ∀ c ∈ text.toList, c.toNat < 128) := by
  obtain ⟨cs, rfl⟩ : ∃ cs, text = .ofList cs := ⟨text.toList, String.ofList_toList.symm⟩
  rw [String.length_ofList, String.toList_ofList]
  induction cs with
  | nil => simp
  | cons c cs ih =>
    obtain ⟨hle, hiff⟩ := ih
    have hpos := c.utf8Size_pos
    have hone : c.utf8Size = 1 ↔ c.toNat < 128 := by
      rw [Char.utf8Size_eq_one_iff, UInt32.le_iff_toNat_le]
      exact Nat.lt_succ_iff.symm
    rw [String.ofList_cons, String.utf8ByteSize_append, String.utf8ByteSize_singleton,
      List.length_cons, List.forall_mem_cons, ← hone, ← hiff]
    omega

/-- **What a journal tells of its messages and batches.** Whatever happens to a tree, a journal
counts the entries that it takes, the turns in which its file becomes longer, and the characters by
which it does, all on top of what it had counted before, which is nothing if it has been opened
meanwhile. The characters are never more than the bytes, and as many if and only if none of them is
beyond the first 128. Only a journal whose text and count of what waits are in step at first is
meant, as those of a new one are. -/
theorem statistics_counted (t : LogTree) (occurrences : List Occurrence) (n : Nat)
    (hstep : ∃ pending, (t.journal n).Holds pending) :
    let turns := t.turns n occurrences
    let before := t.journal n
    let j := (t.undergo occurrences).journal n
    (∀ turn ∈ turns, turn.fileAfter.text = turn.file.text ++ turn.appended) ∧
      j.messages = before.messages + (turns.filterMap Turn.entry?).length ∧
      j.flushes = before.flushes + turns.countP (·.appended ≠ "") ∧
      j.written = before.written + (appendedIn turns).length ∧
      j.written ≤ before.written + (appendedIn turns).utf8ByteSize ∧
      (j.written = before.written + (appendedIn turns).utf8ByteSize ↔
        ∀ c ∈ (appendedIn turns).toList, c.toNat < 128) := by
  intro turns before j
  obtain ⟨pending, hpending⟩ := hstep
  obtain ⟨-, hturns⟩ :=
    (persists_holds pending).undergo_all ⟨hpending, List.forall_mem_nil _⟩ occurrences
  have hflushes : turns.countP Turn.isWritten = turns.countP (·.appended ≠ "") := by
    refine List.countP_congr fun turn hturn ↦ ?_
    obtain ⟨held, hheld⟩ := hturns turn hturn
    rw [Turn.isWritten_iff hheld, decide_eq_true_eq]
  have hwritten : j.written = before.written + (appendedIn turns).length :=
    counts_written.undergo t n occurrences
  obtain ⟨hle, hiff⟩ := length_le_utf8ByteSize (appendedIn turns)
  refine ⟨fun turn _ ↦ turn.text_fileAfter, counts_messages.undergo t n occurrences,
    hflushes ▸ counts_flushes.undergo t n occurrences, hwritten, ?_, ?_⟩
  · omega
  · rw [← hiff, hwritten]
    omega

/-- A message in the second turn is written in the third. -/
theorem statistics_counted_flush :
    let moment : Moment := { stamp := ⟨"", "", ""⟩ }
    let occurrences := [Event.openJournal "a.log" false 1000 3600000,
      .ask 0 (.log "INFO" none (.ofString "one")), .ask 0 .flush].map (.asked moment)
    (∃ pending, (({} : LogTree).journal 0).Holds pending) ∧
      ((({} : LogTree).undergo occurrences).journal 0).messages = 1 ∧
      ((({} : LogTree).undergo occurrences).journal 0).written = 15 := by
  intro moment occurrences
  have hnothing : (({} : LogTree).journal 0).Holds [] := ⟨rfl, rfl⟩
  have happended : appendedIn (({} : LogTree).turns 0 occurrences) = joinLines [" INFO    - one"] :=
    appendedIn_eq_joinLines hnothing (by decide)
  obtain ⟨-, hmessages, -, hwritten, -⟩ := statistics_counted {} occurrences 0 ⟨[], hnothing⟩
  rw [happended] at hwritten
  exact ⟨⟨[], hnothing⟩, hmessages.trans (by decide), hwritten⟩

/-- A character of two bytes is counted once. -/
theorem written_ne_bytes :
    let moment : Moment := { stamp := ⟨"", "", ""⟩ }
    let occurrences := [Event.openJournal "a.log" false 1000 3600000,
      .ask 0 (.log "INFO" none (.ofString "1 µm")), .ask 0 .flush].map (.asked moment)
    let appended := appendedIn (({} : LogTree).turns 0 occurrences)
    appended = " INFO    - 1 µm\n" ∧ appended.utf8ByteSize = 17 ∧
      ((({} : LogTree).undergo occurrences).journal 0).written = 16 := by
  intro moment occurrences appended
  have hnothing : (({} : LogTree).journal 0).Holds [] := ⟨rfl, rfl⟩
  have happended : appended = joinLines [" INFO    - 1 µm"] :=
    appendedIn_eq_joinLines hnothing (by decide)
  refine ⟨happended, ?_, ?_⟩
  · rw [happended]
    rfl
  · rw [counts_written.undergo]
    show 0 + appended.length = 16
    rw [happended]
    rfl

/-! ### Errors -/

/-- What is counted of a kind and what is left out make up the kind. -/
theorem countP_add_countP_and_not {α : Type} {p q : α → Bool} (h : ∀ a, q a = true → p a = true)
    (l : List α) : l.countP q + l.countP (fun a ↦ p a && !q a) = l.countP p := by
  rw [List.countP_eq_countP_filter_add l p q, List.countP_filter, List.countP_filter]
  congr 1
  refine List.countP_congr fun a _ ↦ ?_
  rw [Bool.and_eq_true]
  exact ⟨fun hq ↦ ⟨h a hq, hq⟩, And.right⟩

/-- **What a journal tells of errors.** Whatever happens to a tree, a journal counts the error
messages that were to be counted, if nothing failed with them, and the batches that a blocked file
refused. It leaves out the error messages that came in another way, or with a batch that could not
be written, and the batches that failed because of what they say. -/
theorem errors_counted (t : LogTree) (occurrences : List Occurrence) (n : Nat) :
    let turns := t.turns n occurrences
    let before := t.journal n
    let j := (t.undergo occurrences).journal n
    j.errors = before.errors + turns.countP Turn.isErrorCounted + turns.countP Turn.isRefused ∧
      j.errors + turns.countP (fun turn ↦ turn.isError && !turn.isErrorCounted) +
          turns.countP (fun turn ↦ turn.isFailed && !turn.isRefused) =
        before.errors + turns.countP Turn.isError + turns.countP Turn.isFailed := by
  intro turns before j
  have herrors : j.errors =
      before.errors + (turns.countP Turn.isRefused + turns.countP Turn.isErrorCounted) :=
    counts_errors.undergo t n occurrences
  have hmessages := countP_add_countP_and_not Turn.isError_of_isErrorCounted turns
  have hbatches := countP_add_countP_and_not Turn.isFailed_of_isRefused turns
  omega

/-- Two error messages are written, and neither is counted: they come by other ways than the one
that counts. -/
theorem errors_ne_messages :
    let moment : Moment := { stamp := ⟨"", "", ""⟩ }
    let occurrences := [Event.openJournal "a.log" false 1000 3600000,
      .ask 0 (.log "ERROR" none (.ofString "broken")), .record "unitfmt" .error "broken too" [],
      .ask 0 .flush].map (.asked moment)
    let turns := ({} : LogTree).turns 0 occurrences
    appendedIn turns = " ERROR   - broken\n ERROR   - unitfmt - broken too\n" ∧
      turns.countP Turn.isError = 2 ∧ turns.countP Turn.isFailed = 0 ∧
      ((({} : LogTree).undergo occurrences).journal 0).errors = 0 := by
  intro moment occurrences turns
  have hnothing : (({} : LogTree).journal 0).Holds [] := ⟨rfl, rfl⟩
  have happended : appendedIn turns =
      joinLines [" ERROR   - broken", " ERROR   - unitfmt - broken too"] :=
    appendedIn_eq_joinLines hnothing (by decide)
  exact ⟨happended, by decide, by decide, by decide⟩

end Metrology.LogTree
