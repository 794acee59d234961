import Metrology.Proofs.Document.Number
import Metrology.Proofs.Document.Reading

/-!
# Documents are read as they were written

A document that can be written is read back as itself (`read_write`), if no object has a key twice,
of which the reader would keep the last, and if it is not nested too deeply to be read. Every
document that was read is one of these (`read_write_of_read`).

The proof goes over the document. Each value `Returns` from wherever the writer has put it, that is,
in any context that `Ends` it; an array or object that begins with a value that returns returns
itself if the rest of its elements or members do.
-/

namespace Metrology

open Text

namespace Document

/-! ### Texts -/

variable {rest : List Char} {units : List Nat}

/-- The four digits of a control character. -/
theorem exists_hexDigits {n : Nat} (h : n < 32) :
    ∃ a b c d, hexDigits 4 n = [a, b, c, d] ∧ hexUnit? a b c d = some n := by
  have hall : ∀ n < 32,
      hexDigits 4 n = ['0', '0', Nat.digitChar (n / 16), Nat.digitChar (n % 16)] ∧
        hexUnit? '0' '0' (Nat.digitChar (n / 16)) (Nat.digitChar (n % 16)) = some n := by decide
  exact ⟨_, _, _, _, hall n h⟩

/-- A character is read as its code. -/
theorem readUnits_writeChar {after : List Char} (h : readUnits rest = some (units, after))
    (c : Char) : readUnits (writeChar c ++ rest) = some (c.toNat :: units, after) := by
  rw [writeChar.eq_def]
  split
  · simp [readUnits, h, escapeValue?]
  · simp [readUnits, h, escapeValue?]
  · simp [readUnits, h, escapeValue?]
  · simp [readUnits, h, escapeValue?]
  · simp [readUnits, h, escapeValue?]
  · next hquote hbackslash hnew hreturn htab =>
    split
    · next height => simp [readUnits, h, escapeValue?, height]
    · split
      · next htwelve => simp [readUnits, h, escapeValue?, htwelve]
      · split
        · next hcontrol =>
          obtain ⟨a, b, d, e, hdigits, hunit⟩ := exists_hexDigits hcontrol
          simp [readUnits, h, hdigits, hunit]
        · next hprintable =>
          rw [List.singleton_append, readUnits.eq_def]
          split <;> simp_all

/-- A character is no half of a surrogate pair. -/
theorem pointOfUnit_toNat (c : Char) :
    isHighSurrogate c.toNat = false ∧ pointOfUnit c.toNat = .char c := by
  have hvalid : c.toNat < 0xd800 ∨ 0xdfff < c.toNat ∧ c.toNat < 0x110000 := c.valid
  have hhigh : isHighSurrogate c.toNat = false := by
    simp only [isHighSurrogate, Bool.and_eq_false_iff, decide_eq_false_iff_not]
    omega
  refine ⟨hhigh, ?_⟩
  rw [pointOfUnit, dif_neg (by omega), Char.ofNat_toNat]

theorem joinSurrogates_toNat (cs : List Char) :
    joinSurrogates (cs.map Char.toNat) = cs.map .char := by
  induction cs with
  | nil => rfl
  | cons c cs ih =>
    obtain ⟨hhigh, hpoint⟩ := pointOfUnit_toNat c
    rcases cs with _ | ⟨d, cs⟩
    · rw [List.map_singleton, joinSurrogates, hpoint]
      rfl
    · rw [List.map_cons, List.map_cons] at ih ⊢
      rw [joinSurrogates, hhigh, Bool.false_and, if_neg (by simp), hpoint, ih]
      rfl

theorem readUnits_flatMap (cs rest : List Char) :
    readUnits (cs.flatMap writeChar ++ '"' :: rest) = some (cs.map Char.toNat, rest) := by
  induction cs with
  | nil => rfl
  | cons c cs ih =>
    rw [List.flatMap_cons, List.append_assoc, readUnits_writeChar ih, List.map_cons]

/-- The characters of a text that can be written. -/
theorem exists_chars {text : RawText} (h : textError? text = none) :
    ∃ cs : List Char, text = ⟨cs.map .char⟩ := by
  have hwritable : text.isWritable = true := by
    by_contra hnot
    rw [textError?, if_neg hnot] at h
    exact absurd h (by simp)
  rw [RawText.isWritable, RawText.toString?, Option.isSome_map] at hwritable
  obtain ⟨cs, hcs⟩ := Option.isSome_iff_exists.1 hwritable
  exact ⟨cs, congrArg RawText.mk (RawText.chars?_eq_some_iff.1 hcs)⟩

/-- A text is read as it was written. -/
theorem readText_writeText {text : RawText} (h : textError? text = none) (rest : List Char) :
    ∃ cs, writeText text ++ rest = '"' :: cs ∧ readText cs = .ok (text, rest) := by
  obtain ⟨cs, rfl⟩ := exists_chars h
  have hshown : (RawText.shown ⟨cs.map .char⟩).toList = cs := by
    rw [RawText.shown, String.toList_ofList, List.map_map]
    exact List.map_id' cs
  refine ⟨cs.flatMap writeChar ++ '"' :: rest, ?_, ?_⟩
  · rw [writeText, hshown, List.cons_append, List.cons_append, List.append_assoc]
    rfl
  · rw [readText, readUnits_flatMap]
    simp only [joinSurrogates_toNat]

/-! ### Blanks -/

theorem skipBlanks_of_not_blank {c : Char} (h : isJsonBlank c = false) (cs : List Char) :
    skipBlanks (c :: cs) = c :: cs := by
  rw [skipBlanks, List.dropWhile_cons_of_neg (by simp [h])]

theorem skipBlanks_newLine (level : Nat) (cs : List Char) :
    skipBlanks (newLine level ++ cs) = skipBlanks cs := by
  refine List.dropWhile_append_of_pos fun c hc ↦ ?_
  rcases List.mem_cons.1 hc with rfl | hspace
  · rfl
  · rw [List.eq_of_mem_replicate hspace]
    rfl

/-! ### Simple values -/

theorem not_blank_of_isDigit {c : Char} (h : isDigit c = true) :
    isJsonBlank c = false ∧ c ≠ ']' := by
  have hne : ∀ d, isDigit d = false → c ≠ d := fun d hd heq ↦ by
    rw [← heq, h] at hd
    exact absurd hd (by decide)
  simp [isJsonBlank, hne ' ' rfl, hne '\t' rfl, hne '\n' rfl, hne '\r' rfl, hne ']' rfl]

/-- The first character of a value is no blank and closes nothing. -/
theorem head_writeValue (d : Document) (level : Nat) :
    ∃ c cs, writeValue level d = c :: cs ∧ isJsonBlank c = false ∧ c ≠ ']' := by
  cases d with
  | null => exact ⟨'n', _, rfl, rfl, by decide⟩
  | bool value => cases value <;> exact ⟨_, _, rfl, rfl, by decide⟩
  | number value =>
    obtain ⟨c, hc, hfirst⟩ := head_writeNumber value
    obtain ⟨cs, hcs⟩ := List.head?_eq_some_iff.1 hc
    refine ⟨c, cs, hcs, ?_⟩
    rcases hfirst with hdigit | hword
    · exact not_blank_of_isDigit hdigit
    · simp only [List.mem_cons, List.not_mem_nil, or_false] at hword
      rcases hword with rfl | rfl | rfl <;> exact ⟨rfl, by decide⟩
  | text value => exact ⟨'"', _, rfl, rfl, by decide⟩
  | array elements => cases elements <;> exact ⟨'[', _, rfl, rfl, by decide⟩
  | object members =>
    rcases members with _ | ⟨⟨key, value⟩, members⟩ <;> exact ⟨'{', _, rfl, rfl, by decide⟩

theorem skipBlanks_writeValue (d : Document) (level : Nat) (cs : List Char) :
    skipBlanks (writeValue level d ++ cs) = writeValue level d ++ cs := by
  obtain ⟨c, rest, hcons, hblank, -⟩ := head_writeValue d level
  rw [hcons, List.cons_append, skipBlanks_of_not_blank hblank]

/-! ### Keys -/

/-- Members with distinct keys are all kept, each in its place. -/
theorem lastMembers_of_nodup {members : List (RawText × Document)}
    (h : (members.map Prod.fst).Nodup) : lastMembers members = members := by
  have hfold : ∀ kept : List (RawText × Document), ((kept ++ members).map Prod.fst).Nodup →
      members.foldl (fun kept member ↦ SymbolMap.insertEntry member.1 member.2 kept) kept =
        kept ++ members := by
    clear h
    induction members with
    | nil => exact fun kept _ ↦ (List.append_nil kept).symm
    | cons member members ih =>
      intro kept hnodup
      rw [List.append_cons] at hnodup ⊢
      have hnew : member.1 ∉ kept.map Prod.fst := by
        rw [List.map_append, List.map_append] at hnodup
        exact fun hmem ↦ (List.nodup_append.1 (List.nodup_append.1 hnodup).1).2.2 member.1 hmem
          member.1 List.mem_cons_self rfl
      rw [List.foldl_cons, SymbolMap.insertEntry_of_notMem hnew]
      exact ih _ hnodup
  exact hfold [] h

/-! ### Values -/

variable {d element value : Document} {key : RawText} {elements : List Document}
  {members : List (RawText × Document)} {level levels steps : Nat} {tail after : List Char}

/-- A value is read back from where it was written. -/
def Returns (d : Document) (level levels : Nat) : Prop :=
  ∀ steps rest, (writeValue level d).length ≤ steps → Ends rest →
    readValue steps levels (writeValue level d ++ rest) = .ok (d, rest)

/-- Neither a text nor an array or object. -/
theorem returns_simple {c : Char} {cs : List Char} (hcons : writeValue level d = c :: cs)
    (hc : c ∉ ['"', '[', '{'])
    (hread : ∀ rest, Ends rest → readSimple (writeValue level d ++ rest) = .ok (d, rest)) :
    Returns d level levels := by
  intro steps rest hsteps hrest
  rw [hcons, List.length_cons] at hsteps
  obtain ⟨steps, rfl⟩ := Nat.exists_eq_add_one.2 (show 0 < steps by omega)
  have hsimple := hread rest hrest
  rw [hcons, List.cons_append] at hsimple ⊢
  rw [readValue_simple hc, hsimple]

theorem returns_number {value : Scalar} (h : numberError? value = none) :
    Returns (.number value) level levels := by
  obtain ⟨c, hc, hfirst⟩ := head_writeNumber value
  obtain ⟨cs, hcs⟩ := List.head?_eq_some_iff.1 hc
  refine returns_simple hcs ?_ fun rest hrest ↦ readSimple_writeNumber h hrest
  rcases hfirst with hdigit | hword
  · simp only [List.mem_cons, List.not_mem_nil, or_false, not_or]
    refine ⟨?_, ?_, ?_⟩ <;> rintro rfl <;> exact absurd hdigit (by decide)
  · simp only [List.mem_cons, List.not_mem_nil, or_false] at hword
    rcases hword with rfl | rfl | rfl <;> decide

theorem returns_text {text : RawText} (h : textError? text = none) :
    Returns (.text text) level levels := by
  intro steps rest hsteps hrest
  obtain ⟨cs, hcs, hread⟩ := readText_writeText h rest
  rw [writeValue, writeText, List.cons_append, List.length_cons] at hsteps
  obtain ⟨steps, rfl⟩ := Nat.exists_eq_add_one.2 (show 0 < steps by omega)
  rw [writeValue, hcs, readValue, hread]
  rfl

/-! ### Elements and members -/

/-- What follows an element begins with a comma or a new line. -/
theorem ends_writeElements (elements : List Document) (level close : Nat) (cs : List Char) :
    Ends (writeElements level elements ++ (newLine close ++ cs)) := by
  intro c hc
  cases elements with
  | nil => exact Or.inr (Option.some_inj.1 hc).symm
  | cons element elements => exact Or.inl (Option.some_inj.1 hc).symm

theorem ends_writeMembers (members : List (RawText × Document)) (level close : Nat)
    (cs : List Char) : Ends (writeMembers level members ++ (newLine close ++ cs)) := by
  intro c hc
  rcases members with _ | ⟨⟨key, value⟩, members⟩
  · exact Or.inr (Option.some_inj.1 hc).symm
  · exact Or.inl (Option.some_inj.1 hc).symm

/-- An element that returns is read, and may be the last one. -/
theorem readElements_last (h : Returns element level levels)
    (hsteps : (writeValue level element).length ≤ steps) (htail : Ends tail)
    (hclose : skipBlanks tail = ']' :: after) :
    readElements (steps + 1) levels (writeValue level element ++ tail) =
      .ok ([element], after) := by
  rw [readElements, h steps tail hsteps htail]
  simp [bind, Except.bind, hclose]

/-- An element that returns is read, and others may follow. -/
theorem readElements_next (h : Returns element level levels)
    (hsteps : (writeValue level element).length ≤ steps) (htail : Ends tail)
    (hcomma : skipBlanks tail = ',' :: after)
    (hmore : readElements steps levels (skipBlanks after) = .ok (elements, rest)) :
    readElements (steps + 1) levels (writeValue level element ++ tail) =
      .ok (element :: elements, rest) := by
  rw [readElements, h steps tail hsteps htail]
  simp [bind, Except.bind, hcomma, hmore]

/-- A key with a value that returns. -/
theorem exists_readText (hkey : textError? key = none) (value : Document) (level : Nat)
    (tail : List Char) : ∃ cs,
    writeText key ++ ([':', ' '] ++ (writeValue level value ++ tail)) = '"' :: cs ∧
    readText cs = .ok (key, ':' :: ' ' :: (writeValue level value ++ tail)) ∧
    skipBlanks (':' :: ' ' :: (writeValue level value ++ tail)) =
      ':' :: ' ' :: (writeValue level value ++ tail) ∧
    skipBlanks (' ' :: (writeValue level value ++ tail)) = writeValue level value ++ tail := by
  obtain ⟨cs, hcs, hread⟩ :=
    readText_writeText hkey ([':', ' '] ++ (writeValue level value ++ tail))
  exact ⟨cs, hcs, hread, rfl, skipBlanks_writeValue value level tail⟩

/-- A member whose value returns is read, and may be the last one. -/
theorem readMembers_last (hkey : textError? key = none) (h : Returns value level levels)
    (hsteps : (writeValue level value).length ≤ steps) (htail : Ends tail)
    (hclose : skipBlanks tail = '\x7d' :: after) :
    readMembers (steps + 1) levels
      (writeText key ++ ([':', ' '] ++ (writeValue level value ++ tail))) =
        .ok ([(key, value)], after) := by
  obtain ⟨cs, hcs, hread, hcolon, hspace⟩ := exists_readText hkey value level tail
  rw [hcs, readMembers, hread]
  simp [bind, Except.bind, hcolon, hspace, h steps tail hsteps htail, hclose]

/-- A member whose value returns is read, and others may follow. -/
theorem readMembers_next (hkey : textError? key = none) (h : Returns value level levels)
    (hsteps : (writeValue level value).length ≤ steps) (htail : Ends tail)
    (hcomma : skipBlanks tail = ',' :: after)
    (hmore : readMembers steps levels (skipBlanks after) = .ok (members, rest)) :
    readMembers (steps + 1) levels
      (writeText key ++ ([':', ' '] ++ (writeValue level value ++ tail))) =
        .ok ((key, value) :: members, rest) := by
  obtain ⟨cs, hcs, hread, hcolon, hspace⟩ := exists_readText hkey value level tail
  rw [hcs, readMembers, hread]
  simp [bind, Except.bind, hcolon, hspace, h steps tail hsteps htail, hcomma, hmore]

/-- An array returns if its elements do. -/
theorem returns_array (h : ∀ steps rest,
    (writeValue (level + 1) element ++ writeElements (level + 1) elements).length < steps →
      readElements steps levels (writeValue (level + 1) element ++
        (writeElements (level + 1) elements ++ (newLine level ++ ']' :: rest))) =
          .ok (element :: elements, rest)) :
    Returns (.array (element :: elements)) level (levels + 1) := by
  intro steps rest hsteps hrest
  rw [writeValue] at hsteps ⊢
  simp only [List.cons_append, List.append_assoc, List.length_cons, List.length_append,
    List.nil_append] at hsteps ⊢
  obtain ⟨steps, rfl⟩ := Nat.exists_eq_add_one.2 (show 0 < steps by omega)
  obtain ⟨c, cs, hcons, -, hc⟩ := head_writeValue element (level + 1)
  have helements := h steps rest (by simp only [List.length_append]; omega)
  have hblanks : skipBlanks (newLine (level + 1) ++ (writeValue (level + 1) element ++
      (writeElements (level + 1) elements ++ (newLine level ++ ']' :: rest)))) =
      c :: (cs ++ (writeElements (level + 1) elements ++ (newLine level ++ ']' :: rest))) := by
    rw [skipBlanks_newLine, skipBlanks_writeValue, hcons, List.cons_append]
  rw [hcons, List.cons_append] at helements
  rw [readValue]
  simp only [hblanks]
  split
  · next heq => exact absurd (List.cons.inj heq).1 hc
  · rw [helements]
    rfl

/-- An object returns if its members do. -/
theorem returns_object (hnodup : (((key, value) :: members).map Prod.fst).Nodup)
    (h : ∀ steps rest, (writeValue (level + 1) value ++
      writeMembers (level + 1) members).length < steps →
      readMembers steps levels (writeText key ++ ([':', ' '] ++ (writeValue (level + 1) value ++
        (writeMembers (level + 1) members ++ (newLine level ++ '}' :: rest))))) =
          .ok ((key, value) :: members, rest)) :
    Returns (.object ((key, value) :: members)) level (levels + 1) := by
  intro steps rest hsteps hrest
  rw [writeValue] at hsteps ⊢
  simp only [List.cons_append, List.append_assoc, List.length_cons, List.length_append,
    List.nil_append] at hsteps ⊢
  obtain ⟨steps, rfl⟩ := Nat.exists_eq_add_one.2 (show 0 < steps by omega)
  have hmembers := h steps rest (by simp only [List.length_append]; omega)
  simp only [List.cons_append, List.nil_append] at hmembers
  obtain ⟨cs, hquote⟩ : ∃ cs, writeText key = '"' :: cs := ⟨_, rfl⟩
  have hblanks : ∀ cs', skipBlanks (newLine (level + 1) ++ (writeText key ++ cs')) =
      writeText key ++ cs' := by
    intro cs'
    rw [skipBlanks_newLine, hquote]
    exact skipBlanks_of_not_blank rfl _
  rw [readValue]
  simp only [hblanks]
  split
  · next heq =>
    rw [hquote] at heq
    exact absurd (List.cons.inj heq).1 (by decide)
  · rw [hmembers]
    simp only [Except.map, lastMembers_of_nodup hnodup]

/-- Nothing but the end of an array follows its last element. -/
theorem skipBlanks_close {c : Char} (hc : isJsonBlank c = false) (close : Nat) (rest : List Char) :
    skipBlanks (newLine close ++ c :: rest) = c :: rest := by
  rw [skipBlanks_newLine, skipBlanks_of_not_blank hc]

/-- Before the last element there is a comma. -/
theorem writeElements_cons (cs : List Char) : writeElements level (element :: elements) ++ cs =
    ',' :: (newLine level ++
      (writeValue level element ++ (writeElements level elements ++ cs))) := by
  rw [writeElements]
  simp only [List.cons_append, List.append_assoc]

theorem writeMembers_cons (cs : List Char) : writeMembers level ((key, value) :: members) ++ cs =
    ',' :: (newLine level ++ (writeText key ++ ([':', ' '] ++ (writeValue level value ++
      (writeMembers level members ++ cs))))) := by
  rw [writeMembers]
  simp only [List.cons_append, List.append_assoc, List.nil_append]

theorem skipBlanks_writeText (key : RawText) (cs : List Char) :
    skipBlanks (writeText key ++ cs) = writeText key ++ cs :=
  skipBlanks_of_not_blank rfl _

/-! ### Documents -/

mutual

/-- A document returns if it can be written, has no key twice, and is not nested too deeply. -/
theorem returns : ∀ (d : Document) (level levels : Nat), d.HasDistinctKeys →
    d.writeError? = none → d.depth ≤ levels → Returns d level levels
  | .null, level, levels, _, _, _ =>
    returns_simple (c := 'n') rfl (by decide) fun _ _ ↦ rfl
  | .bool true, level, levels, _, _, _ => returns_simple (c := 't') rfl (by decide) fun _ _ ↦ rfl
  | .bool false, level, levels, _, _, _ => returns_simple (c := 'f') rfl (by decide) fun _ _ ↦ rfl
  | .number _, level, levels, _, herror, _ => returns_number herror
  | .text _, level, levels, _, herror, _ => returns_text herror
  | .array _, _, 0, _, _, hdepth | .object _, _, 0, _, _, hdepth =>
    absurd hdepth (by simp [depth])
  | .array [], level, levels + 1, _, _, _ => by
    intro steps rest hsteps _
    have hsteps' : 2 ≤ steps := hsteps
    obtain ⟨steps, rfl⟩ := Nat.exists_eq_add_one.2 (show 0 < steps by omega)
    rfl
  | .object [], level, levels + 1, _, _, _ => by
    intro steps rest hsteps _
    have hsteps' : 2 ≤ steps := hsteps
    obtain ⟨steps, rfl⟩ := Nat.exists_eq_add_one.2 (show 0 < steps by omega)
    rfl
  | .array (element :: elements), level, levels + 1, hkeys, herror, hdepth => by
    rw [writeError?, elementsError?, Option.or_eq_none_iff] at herror
    rw [depth, depthOfElements] at hdepth
    have helement := returns element (level + 1) levels hkeys.1 herror.1 (by omega)
    exact returns_array fun steps rest hsteps ↦
      returns_elements elements hkeys.2 herror.2 (by omega) helement level steps rest hsteps
  | .object ((key, value) :: members), level, levels + 1, hkeys, herror, hdepth => by
    rw [writeError?, membersError?, Option.or_eq_none_iff, Option.or_eq_none_iff] at herror
    rw [depth, depthOfMembers] at hdepth
    have hvalue := returns value (level + 1) levels hkeys.2.1 herror.1.2 (by omega)
    exact returns_object hkeys.1 fun steps rest hsteps ↦
      returns_members members hkeys.2.2 herror.2 (by omega) herror.1.1 hvalue level steps rest
        hsteps

/-- After an element that returns the further ones are read. -/
theorem returns_elements : ∀ (elements : List Document) {level levels : Nat},
    elementsHaveDistinctKeys elements → elementsError? elements = none →
    depthOfElements elements ≤ levels → ∀ {element : Document}, Returns element level levels →
    ∀ close steps rest, (writeValue level element ++ writeElements level elements).length < steps →
      readElements steps levels (writeValue level element ++
        (writeElements level elements ++ (newLine close ++ ']' :: rest))) =
          .ok (element :: elements, rest)
  | [], level, levels, _, _, _, element, h, close, steps, rest, hsteps => by
    obtain ⟨steps, rfl⟩ := Nat.exists_eq_add_one.2 (Nat.zero_lt_of_lt hsteps)
    rw [List.length_append] at hsteps
    have hends := ends_writeElements [] level close (']' :: rest)
    exact readElements_last h (by omega) hends (skipBlanks_close rfl close rest)
  | next :: elements, level, levels, hkeys, herror, hdepth, element, h, close, steps, rest,
      hsteps => by
    obtain ⟨steps, rfl⟩ := Nat.exists_eq_add_one.2 (Nat.zero_lt_of_lt hsteps)
    rw [elementsError?, Option.or_eq_none_iff] at herror
    rw [depthOfElements] at hdepth
    have hnext := returns next level levels hkeys.1 herror.1 (by omega)
    have hends := ends_writeElements (next :: elements) level close (']' :: rest)
    rw [List.length_append, writeElements] at hsteps
    simp only [List.length_append, List.length_cons] at hsteps
    rw [writeElements_cons] at hends ⊢
    refine readElements_next h (by omega) hends (skipBlanks_of_not_blank rfl _) ?_
    rw [skipBlanks_newLine, skipBlanks_writeValue]
    exact returns_elements elements hkeys.2 herror.2 (by omega) hnext close steps rest
      (by rw [List.length_append]; omega)

/-- After a member whose value returns the further ones are read. -/
theorem returns_members : ∀ (members : List (RawText × Document)) {level levels : Nat},
    membersHaveDistinctKeys members → membersError? members = none →
    depthOfMembers members ≤ levels → ∀ {key : RawText} {value : Document},
    textError? key = none → Returns value level levels →
    ∀ close steps rest, (writeValue level value ++ writeMembers level members).length < steps →
      readMembers steps levels (writeText key ++ ([':', ' '] ++ (writeValue level value ++
        (writeMembers level members ++ (newLine close ++ '\x7d' :: rest))))) =
          .ok ((key, value) :: members, rest)
  | [], level, levels, _, _, _, key, value, hkey, h, close, steps, rest, hsteps => by
    obtain ⟨steps, rfl⟩ := Nat.exists_eq_add_one.2 (Nat.zero_lt_of_lt hsteps)
    rw [List.length_append] at hsteps
    have hends := ends_writeMembers [] level close ('\x7d' :: rest)
    exact readMembers_last hkey h (by omega) hends (skipBlanks_close rfl close rest)
  | (next, value') :: members, level, levels, hkeys, herror, hdepth, key, value, hkey, h, close,
      steps, rest, hsteps => by
    obtain ⟨steps, rfl⟩ := Nat.exists_eq_add_one.2 (Nat.zero_lt_of_lt hsteps)
    rw [membersError?, Option.or_eq_none_iff, Option.or_eq_none_iff] at herror
    rw [depthOfMembers] at hdepth
    have hnext := returns value' level levels hkeys.1 herror.1.2 (by omega)
    have hends := ends_writeMembers ((next, value') :: members) level close ('\x7d' :: rest)
    rw [List.length_append, writeMembers] at hsteps
    simp only [List.length_append, List.length_cons] at hsteps
    rw [writeMembers_cons] at hends ⊢
    refine readMembers_next hkey h (by omega) hends (skipBlanks_of_not_blank rfl _) ?_
    rw [skipBlanks_newLine, skipBlanks_writeText]
    exact returns_members members hkeys.2 herror.2 (by omega) herror.1.1 hnext close steps rest
      (by rw [List.length_append]; omega)

end

/-- **What is written is read back.** -/
theorem read_write {d : Document} {text : String} (hd : Readable maxNesting d)
    (h : d.write = .ok text) : read text = .ok d := by
  rw [write] at h
  split at h
  · next herror =>
    obtain rfl := Except.ok.inj h
    have hreturns := returns d 0 maxNesting hd.hasDistinctKeys herror hd.depth_le
    rw [read, String.toList_ofList]
    have hblanks := skipBlanks_writeValue d 0 []
    rw [List.append_nil] at hblanks
    have hread := hreturns (2 * (writeValue 0 d).length + 2) [] (by omega) (by simp [Ends])
    rw [List.append_nil] at hread
    simp only [hblanks, hread]
    rfl
  · exact absurd h (by simp)

/-- A document that was read is read again as it is written, whatever text it was read from. -/
theorem read_write_of_read {d : Document} {source text : String} (hread : read source = .ok d)
    (h : d.write = .ok text) : read text = .ok d :=
  read_write (readable_of_read hread) h

end Document

end Metrology
