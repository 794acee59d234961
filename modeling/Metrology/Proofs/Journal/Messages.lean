import Metrology.Proofs.Journal.Tree

/-!
# The messages of a journal

What happens to the messages of one journal between its opening and its footer, on a tree with
whatever else. Nothing else writes to its file meanwhile.

At every moment the file holds what it held before, the header, and the lines of the first messages,
and the other messages wait, as lines of the buffer and counted (`Journal.Keeps`). The last batch is
written when the journal is finalized, so then all messages are in the file, and the footer tells
how many they are (`messages_kept`).

That is so as long as no text with half a surrogate pair is to be written. The first batch that has
one is lost, with all proper texts that wait in it.
-/

namespace Metrology.LogTree

variable {t : LogTree} {n : Nat} {j : Journal} {file : LogFile} {before : String}
  {taken : List RawText}

/-! ### Footers -/

/-- What is known of a journal that was opened and then asked for one thing after the other. -/
structure Serves (later : LogTree) (n : Nat) (path before : String) (capacity : Int)
    (taken : List RawText) (answers : List (Except Failure Unit)) (j : Journal) (file : LogFile) :
    Prop where
  has : later.Has n j file
  path_eq : j.path = path
  waiting_lt : (j.waiting : Int) < max 1 capacity
  keeps : (∀ answer ∈ answers, answer = .ok ()) → j.Keeps before taken file
  answers_of_writable : (∀ entry ∈ taken, entry.isWritable = true) →
    ∀ answer ∈ answers, answer = .ok ()

end Metrology.LogTree
