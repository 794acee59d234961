import Metrology.Proofs.Journal.Action

/-!
# Journals of a tree

What the operations on a tree of loggers do to its journals and files, one lemma for each operation
and each thing that can be looked at. Using a journal changes that journal and its file and nothing
else; opening one adds it, with its header at the end of its file.

Whether a file is blocked never changes here (`blocked_use`, `blocked_setFile`), and a journal can
be opened only at a file that is not (`openJournal_of_blocked`).
-/

namespace Metrology

/-! ### New journals -/

namespace LogFile

/-- The text of a file in which a journal begins: what it held, unless that is overwritten, and the
header. -/
def startText (f : LogFile) (overwrite : Bool) (stamp : Stamp) (path : String) : String :=
  (if overwrite then "" else f.content.getD "") ++ headerText stamp path

/-- The file in which a journal begins. -/
def started (f : LogFile) (overwrite : Bool) (stamp : Stamp) (path : String) : LogFile :=
  { f with content := some (f.startText overwrite stamp path) }

end LogFile

namespace Journal

/-- A journal that has taken nothing. -/
def fresh (path : String) (capacity interval now : Int) : Journal :=
  { path, capacity, interval, lastFlush := now }

theorem open?_eq_ok {file : LogFile} (h : file.blocked = false) (stamp : Stamp) (now : Int)
    (path : String) (overwrite : Bool) (capacity interval : Int) :
    open? file stamp now path overwrite capacity interval =
      .ok (fresh path capacity interval now, file.started overwrite stamp path) := by
  obtain ⟨content, blocked⟩ := file
  obtain rfl : blocked = false := h
  cases overwrite <;> cases content <;> rfl

theorem open?_of_blocked {file : LogFile} (h : file.blocked = true) (stamp : Stamp) (now : Int)
    (path : String) (overwrite : Bool) (capacity interval : Int) :
    open? file stamp now path overwrite capacity interval = .error .isDirectory := by
  obtain ⟨content, blocked⟩ := file
  obtain rfl : blocked = true := h
  cases overwrite <;> rfl

/-- A new journal has taken nothing, and its file holds what it held and the header. -/
theorem keeps_fresh {file : LogFile} (h : file.blocked = false) (overwrite : Bool) (stamp : Stamp)
    (path : String) (capacity interval now : Int) :
    Keeps (file.startText overwrite stamp path) [] (fresh path capacity interval now)
      (file.started overwrite stamp path) where
  blocked_eq := h
  messages_eq := rfl
  exists_lines := ⟨[], [], by rw [LogFile.started, joinLines, List.map_nil, String.join_nil,
    String.append_empty], ⟨rfl, rfl⟩, rfl⟩

end Journal

namespace LogTree

variable {α : Type} {t : LogTree} {moment : Moment} {path : String} {n : Nat}

/-! ### Files -/

theorem lookup_filter_ne (files : List (String × LogFile)) {name name' : String}
    (h : name' ≠ name) :
    (files.filter fun entry ↦ entry.1 ≠ name).lookup name' = files.lookup name' := by
  induction files with
  | nil => rfl
  | cons entry files ih =>
    rw [List.filter_cons]
    split
    · rw [List.lookup_cons, List.lookup_cons, ih]
    · next hentry =>
      have hne : (name' == entry.1) = false := by
        rw [beq_eq_false_iff_ne]
        simp only [ne_eq, decide_not, Bool.not_eq_true', Bool.not_eq_false,
          decide_eq_true_eq] at hentry
        exact hentry ▸ h
      rw [List.lookup_cons, hne, ih]

@[simp] theorem properName_setFile (t : LogTree) (path : String) (f : LogFile) (path' : String) :
    (t.setFile path f).properName path' = t.properName path' := rfl

/-- A file that was put in its place is there under each of its names, and no other changes. -/
theorem file_setFile (t : LogTree) (path : String) (f : LogFile) (path' : String) :
    (t.setFile path f).file path' =
      if t.properName path' = t.properName path then f else t.file path' := by
  rw [file, properName_setFile, setFile]
  split
  · next h => rw [List.lookup_cons, h, beq_self_eq_true]; rfl
  · next h =>
    rw [List.lookup_cons, beq_eq_false_iff_ne.2 h]
    show ((List.lookup _ (t.files.filter fun entry ↦ entry.1 ≠ t.properName path)).getD {}) = _
    rw [lookup_filter_ne t.files h, file]

@[simp] theorem file_setFile_self (t : LogTree) (path : String) (f : LogFile) :
    (t.setFile path f).file path = f := by
  rw [file_setFile, if_pos rfl]

@[simp] theorem file_setLevels (t : LogTree) (level : Severity) (path : String) :
    (t.setLevels level).file path = t.file path := rfl

/-- Whether files are blocked does not change when one is replaced by one like it. -/
theorem blocked_setFile {f : LogFile} (h : f.blocked = (t.file path).blocked) (path' : String) :
    ((t.setFile path f).file path').blocked = (t.file path').blocked := by
  rw [file_setFile]
  split
  · next hname => rw [h, file, file, hname]
  · rfl

/-! ### Use -/

theorem journal_of_lt (h : n < t.journals.length) : t.journal n = t.journals[n] := by
  rw [journal, List.getElem?_eq_getElem h, Option.getD_some]

section

variable (t n) (action : Journal → LogFile → α × Journal × LogFile)

/-- What becomes of a journal in use. -/
def used : α × Journal × LogFile := action (t.journal n) (t.file (t.journal n).path)

theorem use_fst : (t.use n action).1 = (t.used n action).1 := rfl

theorem use_snd : (t.use n action).2 =
    t.putBack n (t.used n action).2.1 (t.used n action).2.2 := rfl

theorem journals_use :
    (t.use n action).2.journals = t.journals.set n (t.used n action).2.1 := rfl

@[simp] theorem length_journals_use :
    (t.use n action).2.journals.length = t.journals.length := List.length_set

variable {t n}

theorem journal_use_self (h : n < t.journals.length) :
    (t.use n action).2.journal n = (t.used n action).2.1 := by
  rw [use_snd, putBack, journal]
  simp [h]

/-- A journal that keeps its path has its own file after use. -/
theorem file_use (h : (t.used n action).2.1.path = (t.journal n).path) :
    (t.use n action).2.file (t.journal n).path = (t.used n action).2.2 := by
  rw [use_snd, putBack, h]
  exact file_setFile_self t _ _

theorem blocked_use (hpath : (t.used n action).2.1.path = (t.journal n).path)
    (hblocked : (t.used n action).2.2.blocked = (t.file (t.journal n).path).blocked)
    (path : String) :
    ((t.use n action).2.file path).blocked = (t.file path).blocked := by
  rw [use_snd, putBack, hpath]
  exact blocked_setFile hblocked path

end

/-! ### Asking -/

/-- Asks a journal for one thing. -/
def ask (t : LogTree) (number : Nat) (moment : Moment) (action : Journal.Action) :
    Except Failure Unit × LogTree :=
  t.use number (action.perform moment)

/-- Asks a journal for one thing after the other. -/
def askAll (t : LogTree) (number : Nat) :
    List (Moment × Journal.Action) → List (Except Failure Unit) × LogTree
  | [] => ([], t)
  | (moment, action) :: asked =>
    let (answer, t) := t.ask number moment action
    let (answers, t) := t.askAll number asked
    (answer :: answers, t)

/-- A tree has a journal and its file in a state. -/
structure Has (t : LogTree) (n : Nat) (j : Journal) (file : LogFile) : Prop where
  lt_length : n < t.journals.length
  journal_eq : t.journal n = j
  file_eq : t.file j.path = file

variable {j : Journal} {file : LogFile}

theorem Has.used (h : t.Has n j file) (action : Journal → LogFile → α × Journal × LogFile) :
    t.used n action = action j file := by
  rw [LogTree.used, h.journal_eq, h.file_eq]

theorem Has.use (h : t.Has n j file) {action : Journal → LogFile → α × Journal × LogFile}
    (hpath : (action j file).2.1.path = j.path) :
    (t.use n action).2.Has n (action j file).2.1 (action j file).2.2 := by
  obtain ⟨hlt, rfl, rfl⟩ := h
  refine ⟨?_, journal_use_self action hlt, ?_⟩
  · rwa [length_journals_use]
  · rw [hpath]
    exact file_use action hpath

theorem Has.ask (h : t.Has n j file) (moment : Moment) (action : Journal.Action) :
    (t.ask n moment action).1 = (action.perform moment j file).1 ∧
      (t.ask n moment action).2.Has n (action.perform moment j file).2.1
        (action.perform moment j file).2.2 :=
  ⟨by rw [LogTree.ask, use_fst, h.used],
    h.use (Journal.setUpLike_perform action moment j file).path_eq⟩

/-- Asking a journal of a tree is asking the journal alone. -/
theorem Has.askAll (h : t.Has n j file) (asked : List (Moment × Journal.Action)) :
    (t.askAll n asked).1 = (j.play file asked).1 ∧
      (t.askAll n asked).2.Has n (j.play file asked).2.1 (j.play file asked).2.2 := by
  induction asked generalizing t j file with
  | nil => exact ⟨rfl, h⟩
  | cons head asked ih =>
    obtain ⟨hanswer, hhas⟩ := h.ask head.1 head.2
    obtain ⟨hanswers, hrest⟩ := ih hhas
    refine ⟨?_, hrest⟩
    rw [Journal.play_cons_fst, ← hanswer, ← hanswers]
    rfl

/-! ### Opening -/

/-- The tree after a journal was opened. -/
def opened (t : LogTree) (moment : Moment) (path : String) (overwrite : Bool)
    (capacity interval : Int) : LogTree :=
  let j := Journal.fresh path capacity interval moment.now
  let f := (t.file path).started overwrite moment.stamp path
  let t := { t with journals := t.journals ++ [j], attached := t.attached ++ [t.journals.length] }
  (t.setFile path f).setLevels .info

theorem openJournal_eq_ok (h : (t.file path).blocked = false) (moment : Moment) (overwrite : Bool)
    (capacity interval : Int) :
    t.openJournal moment path overwrite capacity interval =
      (.ok t.journals.length, t.opened moment path overwrite capacity interval) := by
  rw [openJournal, Journal.open?_eq_ok h]
  rfl

theorem openJournal_of_blocked (h : (t.file path).blocked = true) (moment : Moment)
    (overwrite : Bool) (capacity interval : Int) :
    t.openJournal moment path overwrite capacity interval = (.error .isDirectory, t) := by
  rw [openJournal, Journal.open?_of_blocked h]

theorem has_opened (t : LogTree) (moment : Moment) (path : String) (overwrite : Bool)
    (capacity interval : Int) :
    (t.opened moment path overwrite capacity interval).Has t.journals.length
      (.fresh path capacity interval moment.now)
      ((t.file path).started overwrite moment.stamp path) where
  lt_length := by
    show _ < (t.journals ++ [_]).length
    rw [List.length_append, List.length_singleton]
    exact Nat.lt_succ_self _
  journal_eq := by
    show ((t.journals ++ [_])[t.journals.length]?).getD _ = _
    rw [List.getElem?_concat_length, Option.getD_some]
  file_eq := by
    simp only [opened, file_setLevels]
    exact file_setFile_self _ path _

theorem blocked_opened (t : LogTree) (moment : Moment) (path : String) (overwrite : Bool)
    (capacity interval : Int) (path' : String) :
    ((t.opened moment path overwrite capacity interval).file path').blocked =
      (t.file path').blocked := by
  simp only [opened, file_setLevels]
  refine (blocked_setFile ?_ path').trans ?_ <;> rfl

/-! ### The shared journal -/

theorem share_of_some (h : t.shared = some n) (moment : Moment) (path : String) (overwrite : Bool) :
    t.share moment path overwrite = (.ok n, t) := by
  rw [share, h]

theorem share_of_none (h : t.shared = none) (hblocked : (t.file path).blocked = false)
    (moment : Moment) (overwrite : Bool) :
    t.share moment path overwrite = (.ok t.journals.length,
      { t.opened moment path overwrite Journal.defaultCapacity Journal.defaultInterval with
        shared := some t.journals.length }) := by
  rw [share, h, openJournal_eq_ok hblocked]

theorem share_of_blocked (h : t.shared = none) (hblocked : (t.file path).blocked = true)
    (moment : Moment) (overwrite : Bool) :
    t.share moment path overwrite = (.error .isDirectory, t) := by
  rw [share, h, openJournal_of_blocked hblocked]

theorem setup_fst (t : LogTree) (moment : Moment) (path : String) (overwrite verbose : Bool) :
    (t.setup moment path overwrite verbose).1 = (t.share moment path overwrite).1 := by
  rw [setup]
  generalize t.share moment path overwrite = outcome
  obtain ⟨_ | _, t'⟩ := outcome <;> rfl

/-- Setting up sets levels at most once the journal is there. -/
theorem setup_like (t : LogTree) (moment : Moment) (path : String) (overwrite verbose : Bool) :
    let t' := (t.share moment path overwrite).2
    (t.setup moment path overwrite verbose).2.attached = t'.attached ∧
      (t.setup moment path overwrite verbose).2.journals = t'.journals ∧
      (t.setup moment path overwrite verbose).2.shared = t'.shared := by
  rw [setup]
  generalize t.share moment path overwrite = outcome
  obtain ⟨_ | _, t'⟩ := outcome <;> cases verbose <;> exact ⟨rfl, rfl, rfl⟩

/-! ### Finalizing -/

/-- What finalizing a journal can come to, each outcome with its conditions. -/
inductive Finalizing (t : LogTree) (n : Nat) (moment : Moment) :
    Except Failure Unit × LogTree → Prop where
  /-- What waits cannot be written, and the journal stays attached. -/
  | unwritten {t' : LogTree} {e : Failure} (hflush : t.ask n moment .flush = (.error e, t')) :
      Finalizing t n moment (.error e, t')
  /-- The footer cannot be written. -/
  | unfooted {t' : LogTree} (hflush : t.ask n moment .flush = (.ok (), t'))
      (hblocked : (t'.file (t'.journal n).path).blocked = true) :
      Finalizing t n moment (.error .isDirectory, t'.detach n)
  | complete {t' : LogTree} (hflush : t.ask n moment .flush = (.ok (), t'))
      (hblocked : (t'.file (t'.journal n).path).blocked = false) :
      Finalizing t n moment (.ok (), (t'.detach n).setFile (t'.journal n).path
        ((t'.file (t'.journal n).path).extended
          (footerText moment.stamp (t'.journal n).messages)))

theorem finalizing (t : LogTree) (n : Nat) (moment : Moment) :
    Finalizing t n moment (t.finalize moment n) := by
  have huse : t.use n (·.flush · moment.now) = t.ask n moment .flush := rfl
  rw [finalize, huse]
  rcases hflush : t.ask n moment .flush with ⟨_ | _, t'⟩
  · exact .unwritten hflush
  · have hjournal : (t'.detach n).journal n = t'.journal n := rfl
    have hfile : ∀ path, (t'.detach n).file path = t'.file path := fun _ ↦ rfl
    simp only [hjournal, hfile, Journal.close]
    rcases hblocked : (t'.file (t'.journal n).path).blocked with _ | _
    · rw [LogFile.append_eq_ok hblocked]
      exact .complete hflush hblocked
    · rw [LogFile.append, if_pos hblocked]
      exact .unfooted hflush hblocked

end LogTree

end Metrology
