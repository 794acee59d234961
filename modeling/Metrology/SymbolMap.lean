import Metrology.Text.Raw

/-!
# Maps from symbols

A finite map whose keys are unit symbols, in the order in which the symbols were first inserted.
Inserting under a symbol that is there replaces its value in place, so no symbol occurs twice; that
is a field of the type.

Each operation is characterised by what it does to `get?`, `size` and `keys`.
-/

namespace Metrology

/-- A map from symbols to values. -/
structure SymbolMap (α : Type) where
  entries : List (RawText × α)
  nodup_keys : (entries.map Prod.fst).Nodup

namespace SymbolMap

variable {α β : Type}

/-! ### Entries -/

/-- Replaces the value of a key, or adds the key at the end. -/
def insertEntry {κ : Type} [DecidableEq κ] (symbol : κ) (value : α) : List (κ × α) → List (κ × α)
  | [] => [(symbol, value)]
  | (key, old) :: rest =>
    if key = symbol then (key, value) :: rest else (key, old) :: insertEntry symbol value rest

/-- A key that is new comes last. -/
theorem insertEntry_of_notMem {κ : Type} [DecidableEq κ] {symbol : κ} {entries : List (κ × α)}
    (h : symbol ∉ entries.map Prod.fst) (value : α) :
    insertEntry symbol value entries = entries ++ [(symbol, value)] := by
  induction entries with
  | nil => rfl
  | cons entry entries ih =>
    rw [List.map_cons, List.mem_cons, not_or] at h
    rw [insertEntry, if_neg (Ne.symm h.1), ih h.2]
    rfl

theorem mem_keys_insertEntry {κ : Type} [DecidableEq κ] {symbol key : κ} {value : α}
    {entries : List (κ × α)} : key ∈ (insertEntry symbol value entries).map Prod.fst ↔
      key = symbol ∨ key ∈ entries.map Prod.fst := by
  induction entries with
  | nil => simp [insertEntry]
  | cons entry rest ih =>
    obtain ⟨k, old⟩ := entry
    simp only [insertEntry]
    split
    · next h => subst h; simp
    · simp only [List.map_cons, List.mem_cons, ih]; grind

theorem nodup_insertEntry {κ : Type} [DecidableEq κ] {symbol : κ} {value : α}
    {entries : List (κ × α)} (h : (entries.map Prod.fst).Nodup) :
    ((insertEntry symbol value entries).map Prod.fst).Nodup := by
  induction entries with
  | nil => simp [insertEntry]
  | cons entry rest ih =>
    obtain ⟨k, old⟩ := entry
    simp only [List.map_cons, List.nodup_cons] at h
    simp only [insertEntry]
    split
    · simp only [List.map_cons, List.nodup_cons]; exact h
    · next hne =>
      simp only [List.map_cons, List.nodup_cons]
      refine ⟨fun hmem ↦ ?_, ih h.2⟩
      rcases mem_keys_insertEntry.1 hmem with heq | hmem
      · exact hne heq
      · exact h.1 hmem

/-! ### Operations -/

/-- The map without symbols. -/
def empty : SymbolMap α := ⟨[], List.nodup_nil⟩

instance : EmptyCollection (SymbolMap α) := ⟨empty⟩

instance : Inhabited (SymbolMap α) := ⟨empty⟩

/-- The value under a symbol. -/
def get? (m : SymbolMap α) (symbol : RawText) : Option α :=
  (m.entries.find? fun entry ↦ entry.1 = symbol).map Prod.snd

def contains (m : SymbolMap α) (symbol : RawText) : Bool := (m.get? symbol).isSome

def size (m : SymbolMap α) : Nat := m.entries.length

/-- The symbols, in order of first insertion. -/
def keys (m : SymbolMap α) : List RawText := m.entries.map Prod.fst

/-- The map with a value under a symbol, whatever was there. -/
def insert (m : SymbolMap α) (symbol : RawText) (value : α) : SymbolMap α :=
  ⟨insertEntry symbol value m.entries, nodup_insertEntry m.nodup_keys⟩

/-- Inserts entries one after the other. -/
def insertAll (m : SymbolMap α) (entries : List (RawText × α)) : SymbolMap α :=
  entries.foldl (fun m entry ↦ m.insert entry.1 entry.2) m

/-- The last value given for a symbol counts, in the place of the first. -/
def ofList (entries : List (RawText × α)) : SymbolMap α := empty.insertAll entries

/-! ### Characterising equations -/

@[simp] theorem get?_empty (symbol : RawText) : (∅ : SymbolMap α).get? symbol = none := rfl

@[simp] theorem size_empty : (∅ : SymbolMap α).size = 0 := rfl

theorem find?_insertEntry (symbol key : RawText) (value : α) (entries : List (RawText × α)) :
    ((insertEntry symbol value entries).find? fun entry ↦ entry.1 = key).map Prod.snd =
      if key = symbol then some value
      else (entries.find? fun entry ↦ entry.1 = key).map Prod.snd := by
  induction entries with
  | nil =>
    by_cases h : key = symbol
    · simp [insertEntry, h]
    · simp [insertEntry, h, Ne.symm h]
  | cons entry rest ih =>
    obtain ⟨k, old⟩ := entry
    simp only [insertEntry]
    split
    · next hk =>
      subst hk
      by_cases h : key = k
      · simp [h]
      · simp [h, Ne.symm h]
    · next hk =>
      by_cases h : k = key
      · subst h; simp [hk]
      · simpa [List.find?_cons, h] using ih

theorem get?_insert (m : SymbolMap α) (symbol key : RawText) (value : α) :
    (m.insert symbol value).get? key = if key = symbol then some value else m.get? key :=
  find?_insertEntry symbol key value m.entries

@[simp] theorem get?_insert_self (m : SymbolMap α) (symbol : RawText) (value : α) :
    (m.insert symbol value).get? symbol = some value := by simp [get?_insert]

theorem mem_keys_insert {m : SymbolMap α} {symbol key : RawText} {value : α} :
    key ∈ (m.insert symbol value).keys ↔ key = symbol ∨ key ∈ m.keys :=
  mem_keys_insertEntry

theorem contains_iff_mem_keys {m : SymbolMap α} {symbol : RawText} :
    m.contains symbol = true ↔ symbol ∈ m.keys := by
  simp only [contains, get?, keys, Option.isSome_map, List.find?_isSome, List.mem_map,
    decide_eq_true_eq]

theorem get?_eq_none_iff {m : SymbolMap α} {symbol : RawText} :
    m.get? symbol = none ↔ symbol ∉ m.keys := by
  rw [← contains_iff_mem_keys, contains]
  cases m.get? symbol <;> simp

theorem length_insertEntry (symbol : RawText) (value : α) (entries : List (RawText × α)) :
    (insertEntry symbol value entries).length =
      if symbol ∈ entries.map Prod.fst then entries.length else entries.length + 1 := by
  induction entries with
  | nil => simp [insertEntry]
  | cons entry rest ih =>
    obtain ⟨k, old⟩ := entry
    simp only [insertEntry]
    split
    · next h => simp [h]
    · next h =>
      simp only [List.length_cons, ih, List.map_cons, List.mem_cons, Ne.symm h, false_or]
      split <;> rfl

theorem size_insert (m : SymbolMap α) (symbol : RawText) (value : α) :
    (m.insert symbol value).size = if symbol ∈ m.keys then m.size else m.size + 1 :=
  length_insertEntry symbol value m.entries

@[simp] theorem length_keys (m : SymbolMap α) : m.keys.length = m.size := by simp [keys, size]

end SymbolMap

end Metrology
