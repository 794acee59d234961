import Metrology.Proofs.Journal.Tree

/-!
# Routing

Which records reach which journals, whatever is asked of a tree of loggers in whatever order.

A `Roster` is kept beside the tree. It knows of each journal how it was opened and what it has heard
since, which journals are present, that is opened and not finalized, and which is the shared one. It
knows nothing of what is in files, of batches and of the list of attached journals. A record that
passes its logger, is severe enough for journals and has a message is heard once by each journal
that is present and by no other.

The tree does what the roster says (`Matches`): the attached journals are those that are present,
and each journal is in the state of one that heard what it heard alone, on a file of its own. Every
event keeps that (`Matches.after`), so it is so after every run (`records_routed`).

A journal that cannot be opened never was. One that cannot be finalized has written what waited and
stays present, and if it was to be shut down it stays the shared one.
-/

namespace Metrology

namespace Journal

variable {j : Journal} {file : LogFile} {moment : LogTree.Moment} {action : Action}

/-- The journal after it was asked for one thing, if its file is not blocked. -/
def after (j : Journal) (moment : LogTree.Moment) (action : Action) : Journal :=
  (action.perform moment j {}).2.1

theorem perform_eq_after (h : file.blocked = false) :
    (action.perform moment j file).2.1 = j.after moment action :=
  (alike_perform action moment j (show file.blocked = ({} : LogFile).blocked from h)).journal_eq

theorem path_after (j : Journal) (moment : LogTree.Moment) (action : Action) :
    (j.after moment action).path = j.path :=
  (setUpLike_perform action moment j {}).path_eq

end Journal

namespace LogTree

variable {t t' : LogTree} {moment : Moment}

/-! ### Events -/

/-- What can be asked of a tree. -/
inductive Event where
  | openJournal (path : String) (overwrite : Bool) (capacity interval : Int)
  /-- To open the shared journal unless there is one. -/
  | setup (path : String) (overwrite verbose : Bool)
  /-- The same, at the default path. -/
  | get
  /-- To ask a journal itself. -/
  | ask (number : Nat) (action : Journal.Action)
  /-- To send a record to a logger. -/
  | record (name : String) (severity : Severity) (template : String) (arguments : List Document)
  | finalize (number : Nat)
  | shutdown

namespace Event

/-- Asks a tree. The answer is the number of a journal where one was asked for. -/
def perform (event : Event) (moment : Moment) (t : LogTree) :
    Except Failure (Option Nat) × LogTree :=
  match event with
  | openJournal path overwrite capacity interval =>
    (t.openJournal moment path overwrite capacity interval).map (·.map some) id
  | setup path overwrite verbose => (t.setup moment path overwrite verbose).map (·.map some) id
  | get => (t.get moment).map (·.map some) id
  | ask number action => (t.ask number moment action).map (·.map fun _ ↦ none) id
  | record name severity template arguments =>
    (.ok none, t.sendFilled moment name severity template arguments)
  | finalize number => (t.finalize moment number).map (·.map fun _ ↦ none) id
  | shutdown => (t.shutdown moment).map (·.map fun _ ↦ none) id

end Event

/-- The tree after one event after the other. -/
def run (t : LogTree) : List (Moment × Event) → LogTree
  | [] => t
  | (moment, event) :: events => (event.perform moment t).2.run events

/-! ### Rosters -/

/-- What is known of a journal: how it was opened, and what it has heard. -/
structure Account where
  opened : Journal
  heard : List (Moment × Journal.Action) := []

namespace Account

/-- The journal that has heard this, with a file of its own. -/
def journal (a : Account) : Journal := (a.opened.play {} a.heard).2.1

def hear (a : Account) (moment : Moment) (action : Journal.Action) : Account :=
  { a with heard := a.heard ++ [(moment, action)] }

theorem journal_hear (a : Account) (moment : Moment) (action : Journal.Action) :
    (a.hear moment action).journal = a.journal.after moment action := by
  rw [journal, hear, Journal.play_concat]
  exact Journal.perform_eq_after (Journal.setUpLike_play a.opened {} a.heard).blocked_eq

end Account

/-- What is known of all journals. -/
structure Roster where
  /-- The journals by number. -/
  accounts : List Account := []
  /-- The journals that were opened and not finalized. -/
  present : List Nat := []
  shared : Option Nat := none

namespace Roster

/-- Adds a journal. -/
def add (r : Roster) (j : Journal) : Roster :=
  { r with
    accounts := r.accounts ++ [{ opened := j }]
    present := r.present ++ [r.accounts.length] }

/-- Tells some journals something. -/
def tell (r : Roster) (hears : Nat → Bool) (moment : Moment) (action : Journal.Action) : Roster :=
  { r with accounts := r.accounts.mapIdx fun n a ↦ if hears n then a.hear moment action else a }

/-- Adds the shared journal unless there is one, or its file is blocked. -/
def share (r : Roster) (t : LogTree) (moment : Moment) (path : String) : Roster :=
  if r.shared.isSome || (t.file path).blocked then r
  else
    { r.add (.fresh path Journal.defaultCapacity Journal.defaultInterval moment.now) with
      shared := some r.accounts.length }

/-- Has a journal write what waits, and takes it off unless it cannot be finalized. -/
def dismiss (r : Roster) (t : LogTree) (moment : Moment) (number : Nat) : Roster :=
  { r.tell (· == number) moment .flush with
    present :=
      if (t.finalize moment number).1.isOk then r.present.filter (· ≠ number) else r.present }

/-- What a journal hears of a record. -/
def recordAction (name : String) (severity : Severity) (message : RawText) : Journal.Action :=
  .log severity.name none (.ofString (loggerName name ++ " - ") ++ message)

/-- The roster after an event in a tree. -/
def after (r : Roster) (t : LogTree) (moment : Moment) : Event → Roster
  | .openJournal path _ capacity interval =>
    if (t.file path).blocked then r else r.add (.fresh path capacity interval moment.now)
  | .setup path _ _ => r.share t moment path
  | .get => r.share t moment defaultPath
  | .ask number action => r.tell (· == number) moment action
  | .record name severity template arguments =>
    match Text.fillTemplate? template arguments with
    | some message =>
      if t.isTaken (loggerName name) severity then
        r.tell r.present.contains moment (recordAction name severity message)
      else r
    | none => r
  | .finalize number => r.dismiss t moment number
  | .shutdown =>
    match r.shared with
    | some number =>
      { r.dismiss t moment number with
        shared := if (t.finalize moment number).1.isOk then none else some number }
    | none => r

/-- The roster after one event after the other. -/
def follow (r : Roster) (t : LogTree) : List (Moment × Event) → Roster
  | [] => r
  | (moment, event) :: events =>
    (r.after t moment event).follow (event.perform moment t).2 events

end Roster

/-! ### Telling -/

/-- Some journals were asked for something, and nothing else happened to any journal. -/
structure Tells (t t' : LogTree) (hears : Nat → Bool) (moment : Moment) (action : Journal.Action) :
    Prop where
  journals_eq : t'.journals =
    t.journals.mapIdx fun n j ↦ if hears n then j.after moment action else j
  blocked_eq : ∀ path, (t'.file path).blocked = (t.file path).blocked
  attached_eq : t'.attached = t.attached
  shared_eq : t'.shared = t.shared

/-- No journal has a file that is blocked. -/
def IsOpen (t : LogTree) : Prop := ∀ j ∈ t.journals, (t.file j.path).blocked = false

theorem IsOpen.tells (h : t.IsOpen) {hears : Nat → Bool} {action : Journal.Action}
    (htells : Tells t t' hears moment action) : t'.IsOpen := by
  intro j hj
  rw [htells.journals_eq] at hj
  obtain ⟨n, hn, rfl⟩ := List.mem_mapIdx.1 hj
  rw [htells.blocked_eq]
  split
  · rw [Journal.path_after]
    exact h _ (List.getElem_mem hn)
  · exact h _ (List.getElem_mem hn)

/-- Asking a journal tells it alone. -/
theorem IsOpen.tells_ask (h : t.IsOpen) (n : Nat) (moment : Moment) (action : Journal.Action) :
    Tells t (t.ask n moment action).2 (· == n) moment action := by
  have hlike := Journal.setUpLike_perform action moment (t.journal n) (t.file (t.journal n).path)
  refine ⟨?_, blocked_use _ hlike.path_eq hlike.blocked_eq, rfl, rfl⟩
  refine List.ext_getElem (by rw [ask, length_journals_use, List.length_mapIdx]) fun m hm hm' ↦ ?_
  have hlt : m < t.journals.length := by rwa [List.length_mapIdx] at hm'
  rw [List.getElem_mapIdx]
  simp only [ask, journals_use, List.getElem_set]
  by_cases hnm : n = m
  · subst hnm
    rw [if_pos rfl, if_pos (beq_self_eq_true n), used, journal_of_lt hlt]
    exact Journal.perform_eq_after (h _ (List.getElem_mem hlt))
  · rw [if_neg hnm, if_neg (by simpa using Ne.symm hnm)]

theorem tells_nothing (t : LogTree) (moment : Moment) (action : Journal.Action) :
    Tells t t (fun _ ↦ false) moment action :=
  ⟨List.ext_getElem (by simp) (by simp), fun _ ↦ rfl, rfl, rfl⟩

/-- Journals that are told one after the other are told each once. -/
theorem Tells.trans {t'' : LogTree} {hears hears' : Nat → Bool} {action : Journal.Action}
    (h : Tells t t' hears moment action) (h' : Tells t' t'' hears' moment action)
    (hdisjoint : ∀ n, hears n = true → hears' n = false) :
    Tells t t'' (fun n ↦ hears n || hears' n) moment action := by
  refine ⟨?_, fun path ↦ (h'.blocked_eq path).trans (h.blocked_eq path),
    h'.attached_eq.trans h.attached_eq, h'.shared_eq.trans h.shared_eq⟩
  rw [h'.journals_eq, h.journals_eq, List.mapIdx_mapIdx]
  congr 1
  funext n j
  rcases hn : hears n with _ | _
  · simp
  · simp [hdisjoint n hn]

/-- Asking several journals for the same tells each of them. -/
theorem IsOpen.tells_each (h : t.IsOpen) {numbers : List Nat} (hnodup : numbers.Nodup)
    (moment : Moment) (action : Journal.Action) :
    Tells t (numbers.foldl (fun t n ↦ (t.ask n moment action).2) t) numbers.contains moment
      action := by
  induction numbers generalizing t with
  | nil => exact tells_nothing t moment action
  | cons n numbers ih =>
    obtain ⟨hn, hnodup⟩ := List.nodup_cons.1 hnodup
    have hfirst := h.tells_ask n moment action
    have htells := hfirst.trans (ih (h.tells hfirst) hnodup) fun m hm ↦ by
      rw [beq_iff_eq.1 hm]
      simpa using hn
    rwa [show (n :: numbers).contains = fun m ↦ m == n || numbers.contains m from
      funext fun m ↦ List.contains_cons]

/-- A record that is taken is told to all journals that are attached. -/
theorem IsOpen.tells_send (h : t.IsOpen) (hnodup : t.attached.Nodup) (moment : Moment)
    {name : String} {severity : Severity} (message : RawText)
    (htaken : t.isTaken (loggerName name) severity = true) :
    Tells t (t.send moment name severity message) t.attached.contains moment
      (Roster.recordAction name severity message) := by
  rw [send, if_pos htaken]
  exact h.tells_each hnodup moment (Roster.recordAction name severity message)

/-- A journal that is to be finalized is told to write what waits, and is attached no more unless
that fails. -/
theorem IsOpen.tells_finalize (h : t.IsOpen) {n : Nat} (moment : Moment)
    (hlt : n ∈ t.attached → n < t.journals.length) :
    Tells t { (t.finalize moment n).2 with attached := t.attached } (· == n) moment .flush ∧
      (t.finalize moment n).2.attached =
        if (t.finalize moment n).1.isOk then t.attached.filter (· ≠ n) else t.attached := by
  have htells := h.tells_ask n moment .flush
  have hfinalizing := finalizing t n moment
  generalize t.finalize moment n = outcome at hfinalizing ⊢
  cases hfinalizing with
  | unwritten hflush =>
    rw [hflush] at htells
    exact ⟨⟨htells.journals_eq, htells.blocked_eq, rfl, htells.shared_eq⟩, htells.attached_eq⟩
  | @unfooted t' hflush hblocked =>
    rw [hflush] at htells
    refine ⟨⟨htells.journals_eq, htells.blocked_eq, rfl, htells.shared_eq⟩, ?_⟩
    show t'.attached.filter (· ≠ n) = t.attached
    rw [htells.attached_eq, List.filter_eq_self]
    -- The file of a journal of the tree is not blocked, so this was none.
    refine fun m hm ↦ decide_eq_true fun hmn ↦ ?_
    have hn : n < t'.journals.length := by
      rw [htells.journals_eq, List.length_mapIdx]
      exact hlt (hmn ▸ hm)
    rw [journal_of_lt hn, h.tells htells _ (List.getElem_mem hn)] at hblocked
    exact absurd hblocked (by simp)
  | @complete t' hflush hblocked =>
    rw [hflush] at htells
    refine ⟨⟨htells.journals_eq, fun path ↦ ?_, rfl, htells.shared_eq⟩,
      congrArg (List.filter (· ≠ n)) htells.attached_eq⟩
    refine Eq.trans ?_ (htells.blocked_eq path)
    exact blocked_setFile (t := t'.detach n)
      (f := (t'.file (t'.journal n).path).extended _) rfl path

/-- The tree is as the roster says. -/
structure Matches (r : Roster) (t : LogTree) : Prop where
  attached_eq : t.attached = r.present
  nodup_present : r.present.Nodup
  lt_of_present : ∀ n ∈ r.present, n < r.accounts.length
  shared_eq : t.shared = r.shared
  journals_eq : t.journals = r.accounts.map Account.journal
  isOpen : t.IsOpen

namespace Matches

variable {r : Roster} {path : String}

theorem length_eq (h : Matches r t) : t.journals.length = r.accounts.length := by
  rw [h.journals_eq, List.length_map]

theorem setLevels (h : Matches r t) (level : Severity) : Matches r (t.setLevels level) :=
  ⟨h.1, h.2, h.3, h.4, h.5, h.6⟩

theorem tells (h : Matches r t) {hears : Nat → Bool} {action : Journal.Action}
    (htells : Tells t t' hears moment action) : Matches (r.tell hears moment action) t' where
  attached_eq := htells.attached_eq.trans h.attached_eq
  nodup_present := h.nodup_present
  lt_of_present n hn := by
    rw [Roster.tell, List.length_mapIdx]
    exact h.lt_of_present n hn
  shared_eq := htells.shared_eq.trans h.shared_eq
  journals_eq := by
    rw [htells.journals_eq, h.journals_eq, Roster.tell]
    refine List.ext_getElem (by simp) fun n hn hn' ↦ ?_
    rw [List.getElem_mapIdx, List.getElem_map, List.getElem_map, List.getElem_mapIdx]
    split
    · exact (Account.journal_hear _ moment action).symm
    · rfl
  isOpen := h.isOpen.tells htells

theorem opened (h : Matches r t) (hblocked : (t.file path).blocked = false) (moment : Moment)
    (overwrite : Bool) (capacity interval : Int) :
    Matches (r.add (.fresh path capacity interval moment.now))
      (t.opened moment path overwrite capacity interval) where
  attached_eq := by
    show t.attached ++ [t.journals.length] = r.present ++ [r.accounts.length]
    rw [h.attached_eq, h.length_eq]
  nodup_present := by
    refine List.nodup_append.2 ⟨h.nodup_present, by simp, fun n hn m hm ↦ ?_⟩
    rw [List.mem_singleton.1 hm]
    exact Nat.ne_of_lt (h.lt_of_present n hn)
  lt_of_present n hn := by
    rw [Roster.add, List.length_append, List.length_singleton]
    rcases List.mem_append.1 hn with hn | hn
    · exact Nat.lt_succ_of_lt (h.lt_of_present n hn)
    · rw [List.mem_singleton.1 hn]
      exact Nat.lt_succ_self _
  shared_eq := h.shared_eq
  journals_eq := by
    show t.journals ++ [_] = (r.accounts ++ [_]).map Account.journal
    rw [h.journals_eq, List.map_append]
    rfl
  isOpen := by
    intro j hj
    rw [blocked_opened]
    rcases List.mem_append.1 hj with hj | hj
    · exact h.isOpen j hj
    · rw [List.mem_singleton.1 hj]
      exact hblocked

theorem share (h : Matches r t) (moment : Moment) (path : String) (overwrite : Bool) :
    Matches (r.share t moment path) (t.share moment path overwrite).2 := by
  rw [Roster.share]
  rcases hshared : r.shared with _ | n
  · have hnone := h.shared_eq.trans hshared
    rcases hblocked : (t.file path).blocked with _ | _
    · obtain ⟨hattached, hnodup, hlt, -, hjournals, hopen⟩ :=
        h.opened hblocked moment overwrite Journal.defaultCapacity Journal.defaultInterval
      rw [share_of_none hnone hblocked]
      exact ⟨hattached, hnodup, hlt, congrArg some h.length_eq, hjournals, hopen⟩
    · rw [share_of_blocked hnone hblocked]
      exact h
  · rw [share_of_some (h.shared_eq.trans hshared)]
    exact h

theorem setup (h : Matches r t) (moment : Moment) (path : String) (overwrite verbose : Bool) :
    Matches (r.share t moment path) (t.setup moment path overwrite verbose).2 := by
  have hshare := h.share moment path overwrite
  rw [LogTree.setup]
  generalize t.share moment path overwrite = outcome at hshare ⊢
  obtain ⟨_ | _, t'⟩ := outcome
  · exact hshare
  · cases verbose
    · exact hshare
    · exact hshare.setLevels .debug

theorem get (h : Matches r t) (moment : Moment) :
    Matches (r.share t moment defaultPath) (t.get moment).2 := by
  rw [LogTree.get]
  rcases hshared : t.shared with _ | n
  · exact h.setup moment defaultPath false false
  · rw [Roster.share, ← h.shared_eq, hshared]
    exact h

theorem sendFilled (h : Matches r t) (moment : Moment) (name : String) (severity : Severity)
    (template : String) (arguments : List Document) :
    Matches (r.after t moment (.record name severity template arguments))
      (t.sendFilled moment name severity template arguments) := by
  rw [LogTree.sendFilled, Roster.after]
  rcases Text.fillTemplate? template arguments with _ | message
  · exact h
  · dsimp only
    split
    · next htaken =>
      have htells := h.isOpen.tells_send (h.attached_eq ▸ h.nodup_present) moment message htaken
      rw [h.attached_eq] at htells
      exact h.tells htells
    · next htaken =>
      rw [send, if_neg htaken]
      exact h

theorem finalize (h : Matches r t) (moment : Moment) (n : Nat) :
    Matches (r.dismiss t moment n) (t.finalize moment n).2 := by
  obtain ⟨htells, hattached⟩ := h.isOpen.tells_finalize (n := n) moment fun hn ↦
    h.length_eq ▸ h.lt_of_present n (h.attached_eq ▸ hn)
  obtain ⟨-, hnodup, hlt, hshared, hjournals, hopen⟩ := h.tells htells
  rw [h.attached_eq] at hattached
  refine ⟨hattached, ?_, fun m hm ↦ hlt m ?_, hshared, hjournals, hopen⟩
  · rw [Roster.dismiss]
    split
    · exact hnodup.filter _
    · exact hnodup
  · rw [Roster.dismiss] at hm
    split at hm
    · exact (List.mem_filter.1 hm).1
    · exact hm

theorem shutdown (h : Matches r t) (moment : Moment) :
    Matches (r.after t moment .shutdown) (t.shutdown moment).2 := by
  rcases hshared : t.shared with _ | n
  · simp only [LogTree.shutdown, hshared, Roster.after, ← h.shared_eq]
    exact h
  · have hfinalize := h.finalize moment n
    simp only [LogTree.shutdown, hshared, Roster.after, ← h.shared_eq]
    rw [Roster.dismiss] at hfinalize ⊢
    generalize t.finalize moment n = outcome at hfinalize ⊢
    obtain ⟨hattached, hnodup, hlt, hshared', hjournals, hopen⟩ := hfinalize
    obtain ⟨_ | _, t'⟩ := outcome
    · refine ⟨hattached, hnodup, hlt, hshared'.trans ?_, hjournals, hopen⟩
      exact h.shared_eq.symm.trans hshared
    · exact ⟨hattached, hnodup, hlt, rfl, hjournals, hopen⟩

/-- **What an event does to the tree, it does to the roster.** -/
theorem after (h : Matches r t) (moment : Moment) (event : Event) :
    Matches (r.after t moment event) (event.perform moment t).2 := by
  cases event with
  | openJournal path overwrite capacity interval =>
    show Matches (if (t.file path).blocked then r else _)
      (t.openJournal moment path overwrite capacity interval).2
    rcases hblocked : (t.file path).blocked with _ | _
    · rw [openJournal_eq_ok hblocked]
      exact h.opened hblocked moment overwrite capacity interval
    · rw [openJournal_of_blocked hblocked]
      exact h
  | setup path overwrite verbose => exact h.setup moment path overwrite verbose
  | get => exact h.get moment
  | ask number action => exact h.tells (h.isOpen.tells_ask number moment action)
  | record name severity template arguments =>
    exact h.sendFilled moment name severity template arguments
  | finalize number => exact h.finalize moment number
  | shutdown => exact h.shutdown moment

/-- What events do to the tree, they do to the roster. -/
theorem run (h : Matches r t) (events : List (Moment × Event)) :
    Matches (r.follow t events) (t.run events) := by
  induction events generalizing r t with
  | nil => exact h
  | cons head events ih => exact ih (h.after head.1 head.2)

end Matches

end LogTree

end Metrology
