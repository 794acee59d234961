import Mathlib.Data.List.Infix
import Mathlib.Data.List.TakeWhile
import Metrology.Document.Reader

/-!
# What reading does to a text

What a reader returns is `Readable`: no object has a key twice, and arrays and objects are not
nested more deeply than the reader may go. A reader leaves less than it was given, and its errors
have a reason in what it was given (`Justified`): too many levels are reported only of a text with
more than `maxNesting` brackets that open something, too many digits only of a text that has that
many in a row. The three readers of values, elements and members are justified together, and so is
reading a whole text (`readable_of_read`, `justified_of_read`).

Since a reader always gets ahead, the number of steps that it is given does not matter once there
are two for each character (`readValue_eq_of_steps`): no text is malformed for want of steps
(`read_eq_of_steps`).
-/

namespace Metrology

open Text

namespace Document

variable {α β : Type} {cs cs' rest : List Char} {levels : Nat}

/-! ### Keys -/

mutual

/-- No object has a key twice. -/
def HasDistinctKeys : Document → Prop
  | array elements => elementsHaveDistinctKeys elements
  | object members => (members.map Prod.fst).Nodup ∧ membersHaveDistinctKeys members
  | _ => True

/-- No object within some elements has a key twice. -/
def elementsHaveDistinctKeys : List Document → Prop
  | [] => True
  | element :: elements => element.HasDistinctKeys ∧ elementsHaveDistinctKeys elements

/-- No object within some members has a key twice. -/
def membersHaveDistinctKeys : List (RawText × Document) → Prop
  | [] => True
  | (_, value) :: members => value.HasDistinctKeys ∧ membersHaveDistinctKeys members

end

theorem hasDistinctKeys_of_mem {members : List (RawText × Document)} {member : RawText × Document}
    (h : membersHaveDistinctKeys members) (hmem : member ∈ members) : member.2.HasDistinctKeys := by
  induction members with
  | nil => exact absurd hmem List.not_mem_nil
  | cons first members ih =>
    rcases List.mem_cons.1 hmem with rfl | hmem
    · exact h.1
    · exact ih h.2 hmem

/-! ### Documents that can be read -/

/-- A document that can be read within a number of nested levels. -/
structure Readable (levels : Nat) (d : Document) : Prop where
  hasDistinctKeys : d.HasDistinctKeys
  depth_le : d.depth ≤ levels

theorem readable_number (value : Scalar) (levels : Nat) : Readable levels (number value) :=
  ⟨trivial, Nat.zero_le levels⟩

theorem readable_text (value : RawText) (levels : Nat) : Readable levels (text value) :=
  ⟨trivial, Nat.zero_le levels⟩

theorem readable_array {elements : List Document}
    (h : ∀ element ∈ elements, Readable levels element) :
    Readable (levels + 1) (array elements) := by
  suffices hall : elementsHaveDistinctKeys elements ∧ depthOfElements elements ≤ levels from
    ⟨hall.1, Nat.succ_le_succ hall.2⟩
  induction elements with
  | nil => exact ⟨trivial, Nat.zero_le levels⟩
  | cons element elements ih =>
    obtain ⟨helement, helements⟩ := List.forall_mem_cons.1 h
    obtain ⟨hkeys, hdepth⟩ := ih helements
    exact ⟨⟨helement.hasDistinctKeys, hkeys⟩, max_le helement.depth_le hdepth⟩

theorem readable_object {members : List (RawText × Document)}
    (hnodup : (members.map Prod.fst).Nodup) (h : ∀ member ∈ members, Readable levels member.2) :
    Readable (levels + 1) (object members) := by
  suffices hall : membersHaveDistinctKeys members ∧ depthOfMembers members ≤ levels from
    ⟨⟨hnodup, hall.1⟩, Nat.succ_le_succ hall.2⟩
  clear hnodup
  induction members with
  | nil => exact ⟨trivial, Nat.zero_le levels⟩
  | cons member members ih =>
    obtain ⟨hmember, hmembers⟩ := List.forall_mem_cons.1 h
    obtain ⟨hkeys, hdepth⟩ := ih hmembers
    exact ⟨⟨hmember.hasDistinctKeys, hkeys⟩, max_le hmember.depth_le hdepth⟩

theorem forall_mem_insertEntry {p : Document → Prop} {key : RawText} {value : Document}
    {members : List (RawText × Document)} (hvalue : p value) (h : ∀ member ∈ members, p member.2) :
    ∀ member ∈ SymbolMap.insertEntry key value members, p member.2 := by
  induction members with
  | nil => exact List.forall_mem_singleton.2 hvalue
  | cons member members ih =>
    obtain ⟨hmember, hmembers⟩ := List.forall_mem_cons.1 h
    rw [SymbolMap.insertEntry]
    split
    · exact List.forall_mem_cons.2 ⟨hvalue, hmembers⟩
    · exact List.forall_mem_cons.2 ⟨hmember, ih hmembers⟩

/-- Of members that can be read the last ones make an object that can be read. -/
theorem readable_lastMembers {members : List (RawText × Document)}
    (h : ∀ member ∈ members, Readable levels member.2) :
    Readable (levels + 1) (object (lastMembers members)) := by
  suffices hfold : ∀ kept : List (RawText × Document), (kept.map Prod.fst).Nodup →
      (∀ member ∈ kept, Readable levels member.2) → Readable (levels + 1) (object
        (members.foldl (fun kept member ↦ SymbolMap.insertEntry member.1 member.2 kept) kept)) from
    hfold [] List.nodup_nil (by simp)
  induction members with
  | nil => exact fun kept ↦ readable_object
  | cons member members ih =>
    obtain ⟨hmember, hmembers⟩ := List.forall_mem_cons.1 h
    exact fun kept hnodup hkept ↦ ih hmembers _ (SymbolMap.nodup_insertEntry hnodup)
      (forall_mem_insertEntry hmember hkept)

/-! ### What is left -/

/-- What is left of a text after some of its characters. -/
structure IsRest (rest cs : List Char) : Prop where
  suffix : rest <:+ cs
  length_lt : rest.length < cs.length

theorem IsRest.of_suffix (h : IsRest rest cs') (hsuffix : cs' <:+ cs) : IsRest rest cs :=
  ⟨h.suffix.trans hsuffix, h.length_lt.trans_le hsuffix.length_le⟩

theorem isRest_of_cons {c : Char} (h : c :: rest <:+ cs) : IsRest rest cs :=
  ⟨(List.suffix_cons c rest).trans h, h.length_le⟩

theorem isRest_cons {c : Char} (h : rest <:+ cs) : IsRest rest (c :: cs) :=
  ⟨h.trans (List.suffix_cons c cs), Nat.lt_succ_of_le h.length_le⟩

/-! ### Reasons -/

/-- How many arrays and objects a text can open. -/
def openings (cs : List Char) : Nat := cs.countP fun c ↦ c == '[' || c == '{'

/-- A text with a number of digits in a row that is too large. -/
def HasDigitRun (cs : List Char) (count : Nat) : Prop :=
  maxDigits < count ∧ ∃ digits, digits <:+: cs ∧ digits.length = count ∧
    ∀ c ∈ digits, isDigit c = true

/-- What a reader may answer within a number of nested levels. -/
def Justified (p : α → Prop) (levels : Nat) (cs : List Char) :
    Except ReadError (α × List Char) → Prop
  | .ok (a, rest) => p a ∧ IsRest rest cs
  | .error .malformed => True
  | .error .nestedTooDeeply => levels < openings cs
  | .error (.tooManyDigits count) => HasDigitRun cs count

theorem openings_le (h : cs' <:+ cs) : openings cs' ≤ openings cs := h.sublist.countP_le

theorem HasDigitRun.of_suffix {count : Nat} (h : HasDigitRun cs' count) (hsuffix : cs' <:+ cs) :
    HasDigitRun cs count := by
  obtain ⟨hcount, digits, hinfix, hdigits⟩ := h
  exact ⟨hcount, digits, hinfix.trans hsuffix.isInfix, hdigits⟩

section

variable {p : α → Prop} {q : β → Prop} {outcome : Except ReadError (α × List Char)}

/-- What is justified by the end of a text is justified by the whole. -/
theorem Justified.of_suffix (h : Justified p levels cs' outcome) (hsuffix : cs' <:+ cs) :
    Justified p levels cs outcome := by
  rcases outcome with (_ | _ | count) | ⟨a, rest⟩
  · trivial
  · exact Nat.lt_of_lt_of_le h (openings_le hsuffix)
  · exact HasDigitRun.of_suffix h hsuffix
  · exact ⟨h.1, h.2.of_suffix hsuffix⟩

/-- An opening bracket takes one level. -/
theorem Justified.cons {c : Char} (h : Justified p levels cs outcome) (hc : c = '[' ∨ c = '{') :
    Justified p (levels + 1) (c :: cs) outcome := by
  rcases outcome with (_ | _ | count) | ⟨a, rest⟩
  · trivial
  · have hcount : openings (c :: cs) = openings cs + 1 :=
      List.countP_cons_of_pos (by rcases hc with rfl | rfl <;> rfl)
    exact (Nat.succ_lt_succ h).trans_eq hcount.symm
  · exact HasDigitRun.of_suffix h (List.suffix_cons c cs)
  · exact ⟨h.1, h.2.of_suffix (List.suffix_cons c cs)⟩

theorem Justified.map {f : α → β} (h : Justified p levels cs outcome) (hf : ∀ a, p a → q (f a)) :
    Justified q levels cs (outcome.map fun (a, rest) ↦ (f a, rest)) := by
  rcases outcome with (_ | _ | count) | ⟨a, rest⟩
  · trivial
  · exact h
  · exact h
  · exact ⟨hf a h.1, h.2⟩

/-- Readers after one another. -/
theorem Justified.bind {next : α × List Char → Except ReadError (β × List Char)}
    (h : Justified p levels cs outcome)
    (hnext : ∀ a rest, p a → IsRest rest cs → Justified q levels cs (next (a, rest))) :
    Justified q levels cs (outcome >>= next) := by
  rcases outcome with (_ | _ | count) | ⟨a, rest⟩
  · trivial
  · exact h
  · exact h
  · exact hnext a rest h.1 h.2

end

/-! ### Texts -/

theorem skipBlanks_suffix (cs : List Char) : skipBlanks cs <:+ cs := List.dropWhile_suffix _

/-- A text ends with its quote, however many characters an escape takes. -/
theorem isRest_readUnits {units : List Nat} (h : readUnits cs = some (units, rest)) :
    IsRest rest cs := by
  fun_induction readUnits cs generalizing units with
  | case1 => simp at h
  | case2 tail =>
    obtain ⟨-, rfl⟩ := Prod.mk.inj (Option.some.inj h)
    exact isRest_cons List.suffix_rfl
  | case3 a b c d tail ih =>
    simp only [Option.bind_eq_bind, Option.bind_eq_some_iff, Option.pure_def, Option.some.injEq,
      Prod.mk.injEq] at h
    obtain ⟨_, -, ⟨_, _⟩, htail, -, rfl⟩ := h
    exact (ih htail).of_suffix (List.suffix_append ['\\', 'u', a, b, c, d] tail)
  | case4 c tail _ ih =>
    simp only [Option.bind_eq_bind, Option.bind_eq_some_iff, Option.pure_def, Option.some.injEq,
      Prod.mk.injEq] at h
    obtain ⟨_, -, ⟨_, _⟩, htail, -, rfl⟩ := h
    exact (ih htail).of_suffix (List.suffix_append ['\\', c] tail)
  | case5 => simp at h
  | case6 c tail _ _ _ _ ih =>
    simp only [Option.bind_eq_bind, Option.bind_eq_some_iff, Option.pure_def, Option.some.injEq,
      Prod.mk.injEq] at h
    obtain ⟨⟨_, _⟩, htail, -, rfl⟩ := h
    exact (ih htail).of_suffix (List.suffix_cons c tail)

theorem justified_readText (levels : Nat) (cs : List Char) :
    Justified (fun _ ↦ True) levels cs (readText cs) := by
  rw [readText]
  split
  · next units rest h => exact ⟨trivial, isRest_readUnits h⟩
  · trivial

/-! ### Numbers -/

theorem readFraction_suffix (cs : List Char) : (readFraction cs).2 <:+ cs := by
  rw [readFraction.eq_def]
  split
  · next c tail =>
    split
    · rw [List.span_eq_takeWhile_dropWhile]
      exact (List.dropWhile_suffix _).trans (List.suffix_cons '.' (c :: tail))
    · exact List.suffix_rfl
  · exact List.suffix_rfl

theorem splitSign_suffix (cs : List Char) : (splitSign cs).2 <:+ cs := by
  rw [splitSign.eq_def]
  split
  · exact List.suffix_cons _ _
  · exact List.suffix_cons _ _
  · exact List.suffix_rfl

theorem readSignedDigits_suffix {n : Int} (h : readSignedDigits cs = some (n, rest)) :
    rest <:+ cs := by
  rw [readSignedDigits] at h
  simp only [List.span_eq_takeWhile_dropWhile, Option.ite_none_left_eq_some, Option.some.injEq,
    Prod.mk.injEq] at h
  obtain ⟨-, -, rfl⟩ := h
  exact (List.dropWhile_suffix _).trans (splitSign_suffix cs)

theorem readExponent_suffix (cs : List Char) : (readExponent cs).2 <:+ cs := by
  rw [readExponent.eq_def]
  split
  · next mark tail =>
    split
    · split
      · next h => exact (readSignedDigits_suffix h).trans (List.suffix_cons mark tail)
      · exact List.suffix_rfl
    · exact List.suffix_rfl
  · exact List.suffix_rfl

/-- What begins with digits has too many of them only if it has that many in a row. -/
theorem justified_finishNumber (levels : Nat) (negative : Bool) {whole : List Char}
    (hne : whole ≠ []) (hdigits : ∀ c ∈ whole, isDigit c = true) (rest : List Char) :
    Justified (fun _ ↦ True) levels (whole ++ rest) (finishNumber negative whole rest) := by
  have hsuffix : (readExponent (readFraction rest).2).2 <:+ rest :=
    (readExponent_suffix _).trans (readFraction_suffix rest)
  have hrest : IsRest (readExponent (readFraction rest).2).2 (whole ++ rest) := by
    refine ⟨hsuffix.trans (List.suffix_append whole rest), ?_⟩
    have hwhole := List.length_pos_of_ne_nil hne
    have hlength := hsuffix.length_le
    rw [List.length_append]
    omega
  rw [finishNumber]
  dsimp only
  split
  · split
    · next hmany => exact ⟨hmany, whole, (List.prefix_append whole rest).isInfix, rfl, hdigits⟩
    · exact ⟨trivial, hrest⟩
  · exact ⟨trivial, hrest⟩

theorem justified_readUnsigned (levels : Nat) (negative : Bool) (cs : List Char) :
    Justified (fun _ ↦ True) levels cs (readUnsigned negative cs) := by
  rw [readUnsigned.eq_def]
  split
  · next rest =>
    exact justified_finishNumber levels negative (by simp) (List.forall_mem_singleton.2 rfl) rest
  · simp only [List.span_eq_takeWhile_dropWhile]
    split
    · trivial
    · next hne =>
      have hnumber := justified_finishNumber levels negative (by simpa using hne)
        (fun c hc ↦ List.mem_takeWhile_imp hc) (cs.dropWhile isDigit)
      rwa [List.takeWhile_append_dropWhile] at hnumber

theorem justified_readNumber (levels : Nat) (cs : List Char) :
    Justified (fun _ ↦ True) levels cs (readNumber cs) := by
  rw [readNumber.eq_def]
  split
  · next rest => exact (justified_readUnsigned levels true rest).of_suffix (List.suffix_cons _ rest)
  · exact justified_readUnsigned levels false cs

/-! ### Values -/

theorem readWord?_spec {value : Document} (h : readWord? cs = some (value, rest)) (levels : Nat) :
    Readable levels value ∧ IsRest rest cs := by
  obtain ⟨⟨word, value'⟩, hword, hafter⟩ := List.exists_of_findSome?_eq_some h
  obtain ⟨rest', hrest, heq⟩ := Option.map_eq_some_iff.1 hafter
  obtain ⟨rfl, rfl⟩ := Prod.mk.inj heq
  have hall : ∀ entry ∈ words, entry.1.toList ≠ [] ∧ Readable levels entry.2 := by
    simp only [words, List.forall_mem_cons]
    refine ⟨?_, ?_, ?_, ?_, ?_, ?_, by simp⟩ <;> exact ⟨by decide, trivial, Nat.zero_le levels⟩
  obtain ⟨hne, hvalue⟩ := hall _ hword
  obtain ⟨c, beginning, hcons⟩ := List.exists_cons_of_ne_nil hne
  rw [after?_eq_some_iff.1 hrest, hcons]
  exact ⟨hvalue, isRest_cons (List.suffix_append beginning rest')⟩

theorem justified_readSimple (levels : Nat) (cs : List Char) :
    Justified (Readable levels) levels cs (readSimple cs) := by
  rw [readSimple]
  split
  · next value rest h => exact readWord?_spec h levels
  · exact (justified_readNumber levels cs).map fun value _ ↦ readable_number value levels

theorem suffix_of_skipBlanks (h : skipBlanks cs = rest) : rest <:+ cs := h ▸ skipBlanks_suffix cs

mutual

/-- A value is read from the front of a text, or there is a reason in the text why it is not. -/
theorem justified_readValue : ∀ (steps levels : Nat) (cs : List Char),
    Justified (Readable levels) levels cs (readValue steps levels cs)
  | 0, _, _ => trivial
  | steps + 1, levels, cs => by
    rw [readValue.eq_def]
    split
    · trivial
    · next rest _ =>
      exact ((justified_readText _ rest).map fun text _ ↦ readable_text text _).of_suffix
        (List.suffix_cons '"' rest)
    · exact Nat.lt_of_lt_of_eq (Nat.succ_pos _) (List.countP_cons_of_pos rfl).symm
    · exact Nat.lt_of_lt_of_eq (Nat.succ_pos _) (List.countP_cons_of_pos rfl).symm
    · next steps' levels' rest heq =>
      obtain rfl := Nat.succ.inj heq
      split
      · next rest' h =>
        exact ⟨readable_array (by simp),
          isRest_cons (isRest_of_cons (suffix_of_skipBlanks h)).suffix⟩
      · exact (((justified_readElements steps levels' _).map fun _ ↦ readable_array).of_suffix
          (skipBlanks_suffix rest)).cons (Or.inl rfl)
    · next steps' levels' rest heq =>
      obtain rfl := Nat.succ.inj heq
      split
      · next rest' h =>
        exact ⟨readable_object List.nodup_nil (by simp),
          isRest_cons (isRest_of_cons (suffix_of_skipBlanks h)).suffix⟩
      · exact (((justified_readMembers steps levels' _).map fun _ ↦ readable_lastMembers).of_suffix
          (skipBlanks_suffix rest)).cons (Or.inr rfl)
    · exact justified_readSimple _ _

/-- The elements of an array. -/
theorem justified_readElements : ∀ (steps levels : Nat) (cs : List Char),
    Justified (fun elements ↦ ∀ element ∈ elements, Readable levels element) levels cs
      (readElements steps levels cs)
  | 0, _, _ => trivial
  | steps + 1, levels, cs => by
    rw [readElements]
    refine (justified_readValue steps levels cs).bind fun element rest helement hrest ↦ ?_
    dsimp only
    split
    · next rest' h =>
      exact ⟨List.forall_mem_singleton.2 helement,
        isRest_of_cons ((suffix_of_skipBlanks h).trans hrest.suffix)⟩
    · next rest' h =>
      have hcomma := isRest_of_cons ((suffix_of_skipBlanks h).trans hrest.suffix)
      refine ((justified_readElements steps levels _).of_suffix ((skipBlanks_suffix rest').trans
        hcomma.suffix)).bind fun elements rest'' helements hrest ↦ ?_
      exact ⟨List.forall_mem_cons.2 ⟨helement, helements⟩, hrest⟩
    · trivial

/-- The members of an object. -/
theorem justified_readMembers : ∀ (steps levels : Nat) (cs : List Char),
    Justified (fun members ↦ ∀ member ∈ members, Readable levels member.2) levels cs
      (readMembers steps levels cs)
  | 0, _, _ => trivial
  | steps + 1, levels, cs => by
    rw [readMembers.eq_def]
    split
    · next steps' rest heq =>
      obtain rfl := Nat.succ.inj heq
      refine Justified.of_suffix ?_ (List.suffix_cons '"' rest)
      refine (justified_readText _ rest).bind fun key afterKey _ hkey ↦ ?_
      dsimp only
      split
      · next afterColon h =>
        have hcolon := isRest_of_cons ((suffix_of_skipBlanks h).trans hkey.suffix)
        refine ((justified_readValue steps _ _).of_suffix ((skipBlanks_suffix afterColon).trans
          hcolon.suffix)).bind fun value afterValue hvalue hafter ↦ ?_
        dsimp only
        split
        · next rest' h =>
          exact ⟨List.forall_mem_singleton.2 hvalue,
            isRest_of_cons ((suffix_of_skipBlanks h).trans hafter.suffix)⟩
        · next rest' h =>
          have hcomma := isRest_of_cons ((suffix_of_skipBlanks h).trans hafter.suffix)
          refine ((justified_readMembers steps _ _).of_suffix ((skipBlanks_suffix rest').trans
            hcomma.suffix)).bind fun members rest'' hmembers hrest ↦ ?_
          exact ⟨List.forall_mem_cons.2 ⟨hvalue, hmembers⟩, hrest⟩
        · trivial
      · trivial
    · trivial

end

/-! ### Steps -/

/-- What begins like a simple value is read as one. -/
theorem readValue_simple {c : Char} (h : c ∉ ['"', '[', '{']) (steps levels : Nat)
    (cs : List Char) :
    readValue (steps + 1) levels (c :: cs) = readSimple (c :: cs) := by
  simp only [List.mem_cons, List.not_mem_nil, or_false, not_or] at h
  rw [readValue.eq_def]
  split <;> simp_all

/-- If the same is read after a value, the whole is the same. -/
theorem bind_congr {outcome : Except ReadError (α × List Char)}
    {next next' : α × List Char → Except ReadError (β × List Char)} {p : α → Prop}
    (h : Justified p levels cs outcome)
    (hnext : ∀ a rest, IsRest rest cs → next (a, rest) = next' (a, rest)) :
    (outcome >>= next) = outcome >>= next' := by
  rcases outcome with e | ⟨a, rest⟩
  · rfl
  · exact hnext a rest h.2

theorem length_le_of_skipBlanks {c : Char} (h : skipBlanks cs = c :: rest) :
    (skipBlanks rest).length < cs.length :=
  (skipBlanks_suffix rest).length_le.trans_lt (isRest_of_cons (suffix_of_skipBlanks h)).length_lt

mutual

/-- Two steps for each character are enough for a value. -/
theorem readValue_eq_of_steps : ∀ (steps steps' levels : Nat) (cs : List Char),
    2 * cs.length < steps → 2 * cs.length < steps' →
      readValue steps levels cs = readValue steps' levels cs
  | steps + 1, steps' + 1, levels, [], _, _ => rfl
  | steps + 1, steps' + 1, levels, c :: rest, h, h' => by
    rw [List.length_cons] at h h'
    have hrest := (skipBlanks_suffix rest).length_le
    by_cases hc : c ∈ ['"', '[', '{']
    · simp only [List.mem_cons, List.not_mem_nil, or_false] at hc
      rcases hc, levels with ⟨rfl | rfl | rfl, _ | levels⟩
      · rfl
      · rfl
      · rfl
      · have helements := readElements_eq_of_steps steps steps' levels (skipBlanks rest) (by omega)
          (by omega)
        rw [readValue, readValue]
        split
        · rfl
        · rw [helements]
      · rfl
      · have hmembers := readMembers_eq_of_steps steps steps' levels (skipBlanks rest) (by omega)
          (by omega)
        rw [readValue, readValue]
        split
        · rfl
        · rw [hmembers]
    · rw [readValue_simple hc, readValue_simple hc]

/-- One more is needed for the elements of an array. -/
theorem readElements_eq_of_steps : ∀ (steps steps' levels : Nat) (cs : List Char),
    2 * cs.length + 1 < steps → 2 * cs.length + 1 < steps' →
      readElements steps levels cs = readElements steps' levels cs
  | steps + 1, steps' + 1, levels, cs, h, h' => by
    rw [readElements, readElements,
      readValue_eq_of_steps steps steps' levels cs (by omega) (by omega)]
    refine bind_congr (justified_readValue steps' levels cs) fun element rest hrest ↦ ?_
    dsimp only
    split
    · rfl
    · next rest' hcomma =>
      have hlength := length_le_of_skipBlanks hcomma
      have hlength' := hrest.length_lt
      rw [readElements_eq_of_steps steps steps' levels _ (by omega) (by omega)]
    · rfl

/-- And for the members of an object. -/
theorem readMembers_eq_of_steps : ∀ (steps steps' levels : Nat) (cs : List Char),
    2 * cs.length + 1 < steps → 2 * cs.length + 1 < steps' →
      readMembers steps levels cs = readMembers steps' levels cs
  | steps + 1, steps' + 1, levels, cs, h, h' => by
    rcases cs with _ | ⟨c, rest⟩
    · rfl
    by_cases hc : c = '"'
    · subst hc
      rw [List.length_cons] at h h'
      rw [readMembers, readMembers]
      refine bind_congr (justified_readText levels rest) fun key afterKey hkey ↦ ?_
      dsimp only
      split
      · next afterColon hcolon =>
        have hlength := length_le_of_skipBlanks hcolon
        have hlength' := hkey.length_lt
        rw [readValue_eq_of_steps steps steps' levels _ (by omega) (by omega)]
        refine bind_congr (justified_readValue steps' levels _) fun value afterValue hvalue ↦ ?_
        dsimp only
        split
        · rfl
        · next rest' hcomma =>
          have hlength := length_le_of_skipBlanks hcomma
          have hlength' := hvalue.length_lt
          rw [readMembers_eq_of_steps steps steps' levels _ (by omega) (by omega)]
        · rfl
      · rfl
    · rw [readMembers.eq_def, readMembers.eq_def (steps' + 1)]
      simp [hc]

end

/-! ### Whole texts -/

/-- **No text is malformed for want of steps.** -/
theorem read_eq_of_steps (text : String) {steps : Nat} (h : 2 * text.toList.length < steps) :
    read text = (do
      let (value, rest) ← readValue steps maxNesting (skipBlanks text.toList)
      if (skipBlanks rest).isEmpty then .ok value else .error .malformed) := by
  have hblanks := (skipBlanks_suffix text.toList).length_le
  rw [read, readValue_eq_of_steps _ steps maxNesting _ (by omega) (by omega)]

/-- What a whole text is read as, or why it is not. -/
theorem read_spec (text : String) : match read text with
    | .ok d => Readable maxNesting d
    | .error e => Justified (Readable maxNesting) maxNesting text.toList (.error e) := by
  have hvalue := (justified_readValue (2 * text.toList.length + 2) maxNesting _).of_suffix
    (skipBlanks_suffix text.toList)
  rw [read]
  generalize readValue _ _ _ = outcome at hvalue ⊢
  rcases outcome with e | ⟨d, rest⟩
  · exact hvalue
  · show match if (skipBlanks rest).isEmpty then Except.ok d else .error .malformed with
      | .ok d => Readable maxNesting d
      | .error e => Justified (Readable maxNesting) maxNesting text.toList (.error e)
    by_cases hempty : (skipBlanks rest).isEmpty
    · rw [if_pos hempty]
      exact hvalue.1
    · rw [if_neg hempty]
      trivial

/-- **A document that was read has no key twice and is not nested too deeply.** -/
theorem readable_of_read {text : String} {d : Document} (h : read text = .ok d) :
    Readable maxNesting d := by
  have hspec := read_spec text
  rwa [h] at hspec

/-- **The errors of reading have a reason in the text.** -/
theorem justified_of_read {text : String} {e : ReadError} (h : read text = .error e) :
    Justified (Readable maxNesting) maxNesting text.toList (.error e) := by
  have hspec := read_spec text
  rwa [h] at hspec

end Document

end Metrology
