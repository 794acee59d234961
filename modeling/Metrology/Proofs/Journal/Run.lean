import Metrology.Proofs.Journal.Routing
import Metrology.Proofs.Journal.Turn

/-!
# Runs of a tree of loggers

A run of a tree in which anything may be asked of it, and others may do anything to its files in
between: `LogTree.undergo`. In particular a file may be blocked for a while, or be left with a part
of a batch.

The turns of a journal are read off the run (`LogTree.turns`). It has one whenever it is asked
itself, a record reaches it, or it is to be finalized; nothing else that happens changes it. So what
each turn keeps holds after every run (`Persists.undergo`), such as that the text that waits and the
count of its messages are in step (`persists_holds`).
-/

namespace Metrology.LogTree

open Journal (Turn)

variable {t : LogTree} {n : Nat}

/-! ### Runs -/

/-- What can happen to a tree: something is asked of it, or others change one of its files. -/
inductive Occurrence where
  | asked (moment : Moment) (event : Event)
  | disturbed (path : String) (change : LogFile → LogFile)

/-- The tree afterwards. -/
def Occurrence.apply (t : LogTree) : Occurrence → LogTree
  | asked moment event => (event.perform moment t).2
  | disturbed path change => t.setFile path (change (t.file path))

/-- The tree after one thing after the other has happened to it. -/
def undergo (t : LogTree) : List Occurrence → LogTree
  | [] => t
  | occurrence :: occurrences => (occurrence.apply t).undergo occurrences

/-! ### The turns of a run -/

/-- Asks several journals for the same, one after the other. -/
def askEach (t : LogTree) (moment : Moment) (action : Journal.Action) (numbers : List Nat) :
    LogTree :=
  numbers.foldl (fun t number ↦ (t.ask number moment action).2) t

/-- The turn of a journal when one is asked: it has one if it is the one, and is there. -/
def turnOf (t : LogTree) (n : Nat) (moment : Moment) (action : Journal.Action) (number : Nat) :
    List Turn :=
  if number = n ∧ n < t.journals.length then
    [⟨moment, action, t.journal n, t.file (t.journal n).path⟩]
  else []

/-- The turns of a journal while several are asked for the same. -/
def turnsAmong (t : LogTree) (n : Nat) (moment : Moment) (action : Journal.Action) :
    List Nat → List Turn
  | [] => []
  | number :: numbers =>
    t.turnOf n moment action number ++
      (t.ask number moment action).2.turnsAmong n moment action numbers

/-- Which journals are asked at an event, in their order, and for what. -/
def Event.asks (t : LogTree) : Event → List Nat × Journal.Action
  | ask number action => ([number], action)
  | record name severity template arguments =>
    match Text.fillTemplate? template arguments with
    | some message =>
      (if t.isTaken (loggerName name) severity then t.attached else [],
        Roster.recordAction name severity message)
    | none => ([], .flush)
  | finalize number => ([number], .flush)
  | shutdown => (t.shared.toList, .flush)
  | openJournal .. | setup .. | get => ([], .flush)

/-- The turns of a journal while something happens. -/
def Occurrence.turns (t : LogTree) (n : Nat) : Occurrence → List Turn
  | asked moment event => t.turnsAmong n moment (event.asks t).2 (event.asks t).1
  | disturbed _ _ => []

/-- The turns of a journal in a run, in their order. -/
def turns (t : LogTree) (n : Nat) : List Occurrence → List Turn
  | [] => []
  | occurrence :: occurrences => occurrence.turns t n ++ (occurrence.apply t).turns n occurrences

/-- The text that a journal has appended in its turns. -/
def appendedIn (turns : List Turn) : String := .join (turns.map Turn.appended)

theorem appendedIn_append (turns turns' : List Turn) :
    appendedIn (turns ++ turns') = appendedIn turns ++ appendedIn turns' := by
  rw [appendedIn, List.map_append, String.join_append, appendedIn, appendedIn]

theorem appendedIn_singleton (turn : Turn) : appendedIn [turn] = turn.appended := by
  rw [appendedIn, List.map_singleton, String.join_cons, String.join_nil, String.append_empty]

/-! ### What events do to journals -/

/-- The journals are the same, but that a new one may have been added. -/
def Adds (t t' : LogTree) : Prop :=
  t'.journals = t.journals ∨
    ∃ path capacity interval now,
      t'.journals = t.journals ++ [.fresh path capacity interval now]

theorem adds_openJournal (t : LogTree) (moment : Moment) (path : String) (overwrite : Bool)
    (capacity interval : Int) :
    Adds t (t.openJournal moment path overwrite capacity interval).2 := by
  rcases hblocked : (t.file path).blocked with _ | _
  · rw [openJournal_eq_ok hblocked]
    exact .inr ⟨path, capacity, interval, moment.now, rfl⟩
  · rw [openJournal_of_blocked hblocked]
    exact .inl rfl

theorem adds_setup (t : LogTree) (moment : Moment) (path : String) (overwrite verbose : Bool) :
    Adds t (t.setup moment path overwrite verbose).2 := by
  have hshare : Adds t (t.share moment path overwrite).2 := by
    rcases hshared : t.shared with _ | number
    · have hopen := t.adds_openJournal moment path overwrite Journal.defaultCapacity
        Journal.defaultInterval
      rw [share, hshared]
      generalize t.openJournal moment path overwrite _ _ = outcome at hopen ⊢
      obtain ⟨_ | _, t'⟩ := outcome <;> exact hopen
    · rw [share_of_some hshared]
      exact .inl rfl
  rwa [Adds, (t.setup_like moment path overwrite verbose).2.1]

/-- Finalizing a journal only asks it to write what waits. -/
theorem journals_finalize (t : LogTree) (n : Nat) (moment : Moment) :
    (t.finalize moment n).2.journals = (t.ask n moment .flush).2.journals := by
  have hfinalizing := finalizing t n moment
  generalize t.finalize moment n = outcome at hfinalizing ⊢
  cases hfinalizing with
  | unwritten hflush | unfooted hflush | complete hflush =>
    exact congrArg (fun outcome ↦ outcome.2.journals) hflush.symm

/-- An event asks the journals that it asks, and opens at most one. -/
theorem adds_perform (t : LogTree) (moment : Moment) (event : Event) :
    Adds (t.askEach moment (event.asks t).2 (event.asks t).1) (event.perform moment t).2 := by
  cases event with
  | openJournal path overwrite capacity interval =>
    exact t.adds_openJournal moment path overwrite capacity interval
  | setup path overwrite verbose => exact t.adds_setup moment path overwrite verbose
  | get =>
    show Adds t (t.get moment).2
    rw [get]
    split
    · exact .inl rfl
    · exact t.adds_setup moment defaultPath false false
  | ask number action => exact .inl rfl
  | record name severity template arguments =>
    refine .inl ?_
    show (t.sendFilled moment name severity template arguments).journals = _
    rw [sendFilled, Event.asks]
    cases Text.fillTemplate? template arguments with
    | none => rfl
    | some message =>
      dsimp only
      rw [send]
      split <;> rfl
  | finalize number => exact .inl (t.journals_finalize number moment)
  | shutdown =>
    refine .inl ?_
    show (t.shutdown moment).2.journals = _
    rw [shutdown, Event.asks]
    cases t.shared with
    | none => rfl
    | some number =>
      refine Eq.trans ?_ (t.journals_finalize number moment)
      dsimp only
      generalize t.finalize moment number = outcome
      obtain ⟨_ | _, t'⟩ := outcome <;> rfl

/-! ### What turns keep -/

/-- A statement about a journal and the turns it has had so far that each turn keeps. Of a journal
that has just been opened it says what it says of none. -/
structure Persists (P : List Turn → Journal → Prop) : Prop where
  turn : ∀ turns (turn : Turn), P turns turn.journal → P (turns ++ [turn]) turn.after
  fresh : ∀ turns path capacity interval now,
    P turns (.fresh "" 0 0 0) → P turns (.fresh path capacity interval now)

namespace Persists

variable {P : List Turn → Journal → Prop} {past : List Turn}

theorem adds {t t' : LogTree} (h : Persists P) (hadds : Adds t t') (hpast : P past (t.journal n)) :
    P past (t'.journal n) := by
  rcases hadds with hjournals | ⟨path, capacity, interval, now, hjournals⟩
  · rwa [journal, hjournals]
  · rw [journal] at hpast
    rw [journal, hjournals]
    rcases Nat.lt_trichotomy n t.journals.length with hlt | rfl | hgt
    · rwa [List.getElem?_append_left hlt]
    · -- A number that stands for no journal is read as a journal that has taken nothing.
      rw [List.getElem?_eq_none (Nat.le_refl _)] at hpast
      rw [List.getElem?_concat_length]
      exact h.fresh past path capacity interval now hpast
    · rw [List.getElem?_eq_none (Nat.le_of_lt hgt)] at hpast
      rwa [List.getElem?_append_right (Nat.le_of_lt hgt),
        List.getElem?_eq_none (Nat.sub_pos_of_lt hgt)]

theorem ask (h : Persists P) (hpast : P past (t.journal n)) (number : Nat) (moment : Moment)
    (action : Journal.Action) :
    P (past ++ t.turnOf n moment action number) ((t.ask number moment action).2.journal n) := by
  rw [turnOf]
  by_cases hasked : number = n ∧ n < t.journals.length
  · obtain ⟨rfl, hlt⟩ := hasked
    rw [if_pos ⟨rfl, hlt⟩, LogTree.ask, journal_use_self _ hlt]
    exact h.turn past ⟨moment, action, t.journal number, t.file (t.journal number).path⟩ hpast
  · rw [journal] at hpast
    rw [if_neg hasked, List.append_nil, LogTree.ask, journal, journals_use]
    rw [Decidable.not_and_iff_not_or_not, Nat.not_lt] at hasked
    rcases hasked with hne | hle
    · rwa [List.getElem?_set_ne hne]
    · rw [List.getElem?_eq_none hle] at hpast
      rwa [List.getElem?_eq_none (by rwa [List.length_set])]

theorem askEach (h : Persists P) (hpast : P past (t.journal n)) (moment : Moment)
    (action : Journal.Action) (numbers : List Nat) :
    P (past ++ t.turnsAmong n moment action numbers)
      ((t.askEach moment action numbers).journal n) := by
  induction numbers generalizing t past with
  | nil => rwa [turnsAmong, List.append_nil]
  | cons number numbers ih =>
    rw [turnsAmong, ← List.append_assoc]
    exact ih (h.ask hpast number moment action)

theorem apply (h : Persists P) (hpast : P past (t.journal n)) (occurrence : Occurrence) :
    P (past ++ occurrence.turns t n) ((occurrence.apply t).journal n) := by
  cases occurrence with
  | asked moment event =>
    exact h.adds (t.adds_perform moment event) (h.askEach hpast moment _ _)
  | disturbed path change => rwa [Occurrence.turns, List.append_nil]

/-- **What each turn keeps holds after every run.** -/
theorem undergo (h : Persists P) (hpast : P past (t.journal n)) (occurrences : List Occurrence) :
    P (past ++ t.turns n occurrences) ((t.undergo occurrences).journal n) := by
  induction occurrences generalizing t past with
  | nil => rwa [LogTree.turns, List.append_nil]
  | cons occurrence occurrences ih =>
    rw [LogTree.turns, ← List.append_assoc]
    exact ih (h.apply hpast occurrence)

/-- The same of a run before which nothing is said to have happened. -/
theorem undergo_all (h : Persists P) (hstart : P [] (t.journal n))
    (occurrences : List Occurrence) :
    P (t.turns n occurrences) ((t.undergo occurrences).journal n) :=
  h.undergo hstart occurrences

end Persists

/-! ### Journals in step -/

/-- The entries that wait when there were some at first and a journal had some turns. -/
def remaining (pending : List RawText) : List Turn → List RawText
  | [] => pending
  | turn :: turns => remaining (turn.left pending) turns

theorem remaining_concat (pending : List RawText) (turns : List Turn) (turn : Turn) :
    remaining pending (turns ++ [turn]) = turn.left (remaining pending turns) := by
  induction turns generalizing pending with
  | nil => rfl
  | cons head turns ih => exact ih _

/-- **Buffer and count stay in step.** The lines of a journal that holds some entries go on being
those of the entries that wait, and as many are counted, in every turn and at the end. -/
theorem persists_holds (pending : List RawText) : Persists fun turns j ↦
    j.Holds (remaining pending turns) ∧ ∀ turn ∈ turns, ∃ held, turn.journal.Holds held where
  turn turns turn h := by
    refine ⟨remaining_concat pending turns turn ▸ Turn.holds_left h.1, ?_⟩
    exact List.forall_mem_append.2 ⟨h.2, List.forall_mem_singleton.2 ⟨_, h.1⟩⟩
  fresh turns _ _ _ _ h := ⟨⟨h.1.buffer_eq, h.1.waiting_eq⟩, h.2⟩

end Metrology.LogTree
