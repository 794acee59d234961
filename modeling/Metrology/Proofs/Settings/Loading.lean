import Metrology.Proofs.Document.Reading
import Metrology.Settings

/-!
# What loading settings gives

Loading a file gives the settings that its object holds, with the default in the place of each field
that is left out (`HoldsFields`), and these are valid. Any error has its reason in the content. An
error of the settings says what is wrong with the file, the object or an added unit (`Rejects`).
There are four others (`Escapes`): bytes that are not text, a text that opens too many arrays and
objects, a text with too many digits in a row, and an added unit whose whole multiplier is too large
for a double. Nothing else comes of loading (`load_outcome`).

The first of the four shows that they do escape: a byte that is no text is not reported as an error
of the settings (`load_notText`).
-/

namespace Metrology

open Document

namespace Settings

variable {s : Settings} {members entries : List (RawText × Document)}

/-- Settings that pass all checks. The added units are a mapping, so no symbol occurs twice. -/
structure Valid (s : Settings) : Prop where
  digits_pos : 1 ≤ s.significantDigits
  nodup : (s.extraUnits.map Prod.fst).Nodup
  symbols_ne : ∀ entry ∈ s.extraUnits, entry.1.isEmpty = false
  isUsable : ∀ entry ∈ s.extraUnits, entry.2.isUsable = true

/-! ### Checks -/

section

variable {α β : Type} {p p' : α → Prop} {q : β → Prop} {refusal refusal' : SettingsError → Prop}
  {reason reason' : Prop} {x : Except Failure α}

/-- What a check may answer: something with a property, an error of the settings that refuses, or an
overflow if there is a reason for one. -/
def Checks (p : α → Prop) (refusal : SettingsError → Prop) (reason : Prop) :
    Except Failure α → Prop
  | .ok a => p a
  | .error e => (∃ cause, e = .settings cause ∧ refusal cause) ∨ e = .number .overflow ∧ reason

theorem Checks.imp (h : Checks p refusal reason x) (hp : ∀ a, p a → p' a)
    (hrefusal : ∀ cause, refusal cause → refusal' cause) (hreason : reason → reason') :
    Checks p' refusal' reason' x := by
  rcases x with e | a
  · rcases h with ⟨cause, rfl, hcause⟩ | ⟨rfl, hoverflow⟩
    · exact Or.inl ⟨cause, rfl, hrefusal cause hcause⟩
    · exact Or.inr ⟨rfl, hreason hoverflow⟩
  · exact hp a h

/-- Checks after one another. -/
theorem Checks.bind {f : α → Except Failure β} (h : Checks p refusal reason x)
    (hf : ∀ a, p a → Checks q refusal reason (f a)) : Checks q refusal reason (x >>= f) := by
  rcases x with e | a
  · exact h
  · exact hf a h

theorem checks_settings {cause : SettingsError} (h : refusal cause) :
    Checks p refusal reason (.error (.settings cause)) := Or.inl ⟨cause, rfl, h⟩

end

/-! ### Added units -/

/-- The members that hold added units. -/
def unitMembers (units : List (RawText × Scalar)) : List (RawText × Document) :=
  units.map fun (symbol, m) ↦ (symbol, number m)

/-- Why members hold no units. -/
inductive RefusesUnit (entries : List (RawText × Document)) : SettingsError → Prop
  | emptySymbol {symbol : RawText} {value : Document} (hmem : (symbol, value) ∈ entries)
      (h : symbol.isEmpty = true) : RefusesUnit entries .emptySymbol
  | unusable {symbol : RawText} {value : Document} (hmem : (symbol, value) ∈ entries)
      (h : ∀ m, value = number m → m.isUsable = false) :
      RefusesUnit entries (.unusableExtraUnit symbol)

/-- A whole multiplier is too large for a double. -/
def HasHugeUnit (entries : List (RawText × Document)) : Prop :=
  ∃ symbol n, (symbol, number (.int n)) ∈ entries ∧ (Double.ofInt n).isFinite = false

/-- Units that have passed their checks. -/
def AreUsable (units : List (RawText × Scalar)) : Prop :=
  ∀ unit ∈ units, unit.1.isEmpty = false ∧ unit.2.isUsable = true

section

variable {entries' : List (RawText × Document)}

theorem RefusesUnit.of_subset {cause : SettingsError} (h : RefusesUnit entries cause)
    (hsubset : entries ⊆ entries') : RefusesUnit entries' cause := by
  cases h with
  | emptySymbol hmem h => exact .emptySymbol (hsubset hmem) h
  | unusable hmem h => exact .unusable (hsubset hmem) h

theorem HasHugeUnit.of_subset (h : HasHugeUnit entries) (hsubset : entries ⊆ entries') :
    HasHugeUnit entries' := by
  obtain ⟨symbol, n, hmem, hn⟩ := h
  exact ⟨symbol, n, hsubset hmem, hn⟩

end

theorem checks_extraMultiplier (symbol : RawText) (d : Document) :
    Checks (fun m ↦ d = number m ∧ m.isUsable = true) (RefusesUnit [(symbol, d)])
      (HasHugeUnit [(symbol, d)]) (extraMultiplier symbol d) := by
  have hmem : (symbol, d) ∈ [(symbol, d)] := List.mem_singleton_self _
  cases d with
  | number m =>
    have hunusable (h : m.isUsable = false) :
        RefusesUnit [(symbol, number m)] (.unusableExtraUnit symbol) :=
      .unusable hmem fun m' heq ↦ (number.inj heq) ▸ h
    cases m with
    | int n =>
      rw [Scalar.isUsable] at hunusable
      rw [extraMultiplier, Scalar.toDouble]
      by_cases hzero : n = 0
      · rw [if_pos hzero]
        exact checks_settings (hunusable (by rw [hzero, bne_self_eq_false, Bool.false_and]))
      · rw [if_neg hzero]
        by_cases hfinite : (Double.ofInt n).isFinite = true
        · rw [if_pos hfinite]
          exact ⟨rfl, by rw [Scalar.isUsable, hfinite, Bool.and_true, bne_iff_ne]; exact hzero⟩
        · rw [if_neg hfinite]
          exact Or.inr ⟨rfl, symbol, n, hmem, Bool.eq_false_iff.2 hfinite⟩
    | double x =>
      rw [extraMultiplier]
      by_cases hx : x.isFiniteNonzero = true
      · rw [if_pos hx]
        exact ⟨rfl, hx⟩
      · rw [if_neg hx]
        exact checks_settings (hunusable (Bool.eq_false_iff.2 hx))
  | _ => exact checks_settings (.unusable hmem fun m heq ↦ by simp at heq)

theorem checks_extraUnit (entry : RawText × Document) :
    Checks (fun unit ↦ entry = (unit.1, number unit.2) ∧
        unit.1.isEmpty = false ∧ unit.2.isUsable = true) (RefusesUnit [entry]) (HasHugeUnit [entry])
      (extraUnit entry) := by
  rw [extraUnit]
  by_cases hempty : entry.1.isEmpty = true
  · rw [if_pos hempty]
    exact checks_settings (.emptySymbol (List.mem_singleton_self entry) hempty)
  · rw [if_neg hempty]
    exact (checks_extraMultiplier entry.1 entry.2).bind fun m hm ↦
      ⟨by rw [← hm.1], Bool.eq_false_iff.2 hempty, hm.2⟩

/-- Added units are read from the members that hold them, if their symbols and multipliers pass. -/
theorem checks_mapM_extraUnit (entries : List (RawText × Document)) :
    Checks (fun units ↦ entries = unitMembers units ∧ AreUsable units) (RefusesUnit entries)
      (HasHugeUnit entries) (entries.mapM extraUnit) := by
  induction entries with
  | nil => exact ⟨rfl, by simp [AreUsable]⟩
  | cons entry entries ih =>
    rw [List.mapM_cons]
    have hfirst : [entry] ⊆ entry :: entries :=
      List.cons_subset_cons entry (List.nil_subset entries)
    have hrest : entries ⊆ entry :: entries := List.subset_cons_self entry entries
    have hentry := (checks_extraUnit entry).imp (fun _ ↦ id) (fun _ h ↦ h.of_subset hfirst)
      fun h ↦ h.of_subset hfirst
    have hentries := ih.imp (fun _ ↦ id) (fun _ h ↦ h.of_subset hrest) fun h ↦ h.of_subset hrest
    refine hentry.bind fun unit hunit ↦ hentries.bind fun units hunits ↦ ⟨?_, ?_⟩
    · rw [hunit.1, hunits.1]
      rfl
    · exact List.forall_mem_cons.2 ⟨hunit.2, hunits.2⟩

/-! ### Objects -/

/-- Why the members of an object hold no settings. -/
inductive Refuses (members : List (RawText × Document)) : SettingsError → Prop
  | unknownKeys {unknown : List RawText} (hne : unknown ≠ [])
      (h : ∀ key ∈ unknown, key ∈ members.map Prod.fst ∧ key ∉ keys.map RawText.ofString) :
      Refuses members (.unknownKeys unknown)
  | notBoolean {key : String} {value : Document} (hfield : field? members key = some value)
      (h : ∀ flag, value ≠ bool flag) : Refuses members (.notBoolean key)
  | digits {value : Document} (hfield : field? members "significant_digits" = some value)
      (h : ∀ digits : Nat, 1 ≤ digits → value ≠ number (.int digits)) :
      Refuses members .digitsNotPositive
  | notMapping {value : Document} (hfield : field? members "extra_units" = some value)
      (h : ∀ entries, value ≠ object entries) : Refuses members .extraUnitsNotMapping
  | unit {entries : List (RawText × Document)} {cause : SettingsError}
      (hfield : field? members "extra_units" = some (object entries))
      (h : RefusesUnit entries cause) : Refuses members cause

/-- The object adds a unit whose whole multiplier is too large for a double. -/
def AddsHugeUnit (members : List (RawText × Document)) : Prop :=
  ∃ entries, field? members "extra_units" = some (object entries) ∧ HasHugeUnit entries

/-- The settings that the members of an object hold: each field has the value that is given for it,
or the default one. -/
structure HoldsFields (members : List (RawText × Document)) (s : Settings) : Prop where
  known : ∀ key ∈ members.map Prod.fst, key ∈ keys.map RawText.ofString
  parseCompound : (field? members "parse_compound").getD (bool true) =
    bool s.preferences.parseCompound
  memoize : (field? members "memoize").getD (bool true) = bool s.preferences.memoize
  failLoud : (field? members "fail_loud").getD (bool true) = bool s.preferences.failLoud
  verbose : (field? members "verbose").getD (bool false) = bool s.verbose
  digits : (field? members "significant_digits").getD (number (.int 3)) =
    number (.int s.significantDigits)
  digits_pos : 1 ≤ s.significantDigits
  extraUnits : (field? members "extra_units").getD (object []) = object (unitMembers s.extraUnits)
  areUsable : AreUsable s.extraUnits
  logFile : (field? members "log_file").getD null = s.logFile

theorem mem_unknownKeys {key : RawText} : key ∈ unknownKeys members ↔
    key ∈ members.map Prod.fst ∧ key ∉ keys.map RawText.ofString := by
  rw [unknownKeys, List.mem_mergeSort, List.mem_filter, decide_eq_true_eq]

theorem checks_flag (members : List (RawText × Document)) (key : String) (byDefault : Bool) :
    Checks (fun value ↦ (field? members key).getD (bool byDefault) = bool value) (Refuses members)
      (AddsHugeUnit members) ((flag members key byDefault).mapError Failure.settings) := by
  rw [flag]
  split
  · next hfield => exact congrArg (Option.getD · (bool byDefault)) hfield
  · next value hfield => exact congrArg (Option.getD · (bool byDefault)) hfield
  · next value hvalue hfield =>
    exact checks_settings (.notBoolean hfield fun flag heq ↦ hvalue flag heq)

theorem checks_digitsField (members : List (RawText × Document)) :
    Checks (fun digits : Nat ↦ (field? members "significant_digits").getD (number (.int 3)) =
        number (.int digits) ∧ 1 ≤ digits) (Refuses members) (AddsHugeUnit members)
      ((digitsField members).mapError Failure.settings) := by
  rw [digitsField]
  split
  · next hfield => exact ⟨congrArg (Option.getD · (number (.int 3))) hfield, by decide⟩
  · next n hfield =>
    by_cases hn : 1 ≤ n
    · rw [if_pos hn]
      refine ⟨?_, by omega⟩
      rw [hfield, Option.getD_some, Int.toNat_of_nonneg (by omega)]
    · rw [if_neg hn]
      refine checks_settings (.digits hfield fun digits hdigits heq ↦ ?_)
      have hcast := Scalar.int.inj (number.inj heq)
      omega
  · next value hvalue hfield =>
    exact checks_settings (.digits hfield fun digits _ heq ↦ hvalue digits heq)

theorem checks_extraUnitsField (members : List (RawText × Document)) :
    Checks (fun units ↦ (field? members "extra_units").getD (object []) =
        object (unitMembers units) ∧ AreUsable units) (Refuses members) (AddsHugeUnit members)
      (extraUnitsField members) := by
  rw [extraUnitsField]
  split
  · next hfield =>
    exact ⟨congrArg (Option.getD · (object [])) hfield, by simp [AreUsable]⟩
  · next entries hfield =>
    refine (checks_mapM_extraUnit entries).imp (fun units hunits ↦ ⟨?_, hunits.2⟩)
      (fun _ h ↦ .unit hfield h) fun h ↦ ⟨entries, hfield, h⟩
    rw [hfield, hunits.1, Option.getD_some]
  · next value hvalue hfield => exact checks_settings (.notMapping hfield hvalue)

/-- **The members of an object hold settings, or there is a reason why they do not.** -/
theorem checks_ofMembers (members : List (RawText × Document)) :
    Checks (HoldsFields members) (Refuses members) (AddsHugeUnit members) (ofMembers members) := by
  rw [ofMembers]
  dsimp only
  split
  · next hunknown =>
    exact checks_settings (.unknownKeys (by simpa using hunknown) fun _ ↦ mem_unknownKeys.1)
  · next hknown =>
    have hnil : unknownKeys members = [] := by simpa using hknown
    refine (checks_flag _ _ _).bind fun parseCompound hparse ↦ (checks_flag _ _ _).bind
      fun memoize hmemoize ↦ (checks_flag _ _ _).bind fun failLoud hloud ↦ (checks_flag _ _ _).bind
      fun verbose hverbose ↦ (checks_digitsField members).bind fun digits hdigits ↦
      (checks_extraUnitsField members).bind fun units hunits ↦ ?_
    refine ⟨fun key hkey ↦ ?_, hparse, hmemoize, hloud, hverbose, hdigits.1, hdigits.2, hunits.1,
      hunits.2, rfl⟩
    by_contra hnot
    exact absurd (mem_unknownKeys.2 ⟨hkey, hnot⟩) (by simp [hnil])

/-! ### Files -/

theorem hasDistinctKeys_getD {key : String} {byDefault : Document}
    (hkeys : membersHaveDistinctKeys members) (hdefault : byDefault.HasDistinctKeys) :
    ((field? members key).getD byDefault).HasDistinctKeys := by
  rcases hfield : field? members key with _ | value
  · exact hdefault
  · obtain ⟨before, after, rfl, -⟩ := List.lookup_eq_some_iff.1 hfield
    exact hasDistinctKeys_of_mem hkeys (List.mem_append_right before List.mem_cons_self)

/-- Settings from an object without repeated keys are valid. -/
theorem HoldsFields.valid (h : HoldsFields members s) (hkeys : membersHaveDistinctKeys members) :
    s.Valid where
  digits_pos := h.digits_pos
  nodup := by
    have hobject : (object (unitMembers s.extraUnits)).HasDistinctKeys :=
      h.extraUnits ▸ hasDistinctKeys_getD hkeys ⟨List.nodup_nil, trivial⟩
    have hnodup := hobject.1
    rwa [unitMembers, List.map_map] at hnodup
  symbols_ne unit hmem := (h.areUsable unit hmem).1
  isUsable unit hmem := (h.areUsable unit hmem).2

theorem HoldsFields.hasDistinctKeys_logFile (h : HoldsFields members s)
    (hkeys : membersHaveDistinctKeys members) : s.logFile.HasDistinctKeys :=
  h.logFile ▸ hasDistinctKeys_getD hkeys trivial

theorem fromUTF8?_toUTF8 (text : String) : String.fromUTF8? text.toUTF8 = some text :=
  dif_pos text.isValidUTF8

/-- What a file must be to be refused with an error of the settings. -/
inductive Rejects (wording : String → String) (path : RawText) :
    Except String ByteArray → SettingsError → Prop
  | unreadable {cause : String} : Rejects wording path (.error cause) (.unreadable path cause)
  | invalid {text : String} (hread : Document.read text = .error .malformed) :
      Rejects wording path (.ok text.toUTF8) (.invalidDocument path (wording text))
  | notAnObject {text : String} {d : Document} (hread : Document.read text = .ok d)
      (h : ∀ members, d ≠ object members) :
      Rejects wording path (.ok text.toUTF8) (.notAnObject path)
  | refuses {text : String} {members : List (RawText × Document)} {cause : SettingsError}
      (hread : Document.read text = .ok (object members)) (h : Refuses members cause) :
      Rejects wording path (.ok text.toUTF8) cause

/-- What bytes must be to be the reason for an error that is none of the settings. -/
inductive Escapes : ByteArray → Failure → Prop
  /-- Bytes that are not text. -/
  | notText {bytes : ByteArray} (h : String.fromUTF8? bytes = none) : Escapes bytes .notText
  /-- A text that opens too many arrays and objects. -/
  | tooDeep {text : String} (h : maxNesting < openings text.toList) :
      Escapes text.toUTF8 .documentTooDeep
  /-- A text with too many digits in a row. -/
  | tooManyDigits {text : String} {count : Nat} (h : HasDigitRun text.toList count) :
      Escapes text.toUTF8 (.number (.tooManyDigits count))
  /-- A unit with a whole multiplier that is too large for a double. -/
  | overflow {text : String} {members : List (RawText × Document)}
      (hread : Document.read text = .ok (object members)) (h : AddsHugeUnit members) :
      Escapes text.toUTF8 (.number .overflow)

theorem eq_toUTF8_of_fromUTF8? {bytes : ByteArray} {text : String}
    (h : String.fromUTF8? bytes = some text) : bytes = text.toUTF8 := by
  rw [String.fromUTF8?] at h
  split at h
  · exact Option.some.inj h ▸ rfl
  · exact absurd h (by simp)

/-- Settings that are loaded are held by the object in the file. -/
theorem holdsFields_of_ofBytes {wording : String → String} {path : RawText}
    {content : Except String ByteArray}
    (h : ofBytes wording path content = .ok s) : ∃ text members, content = .ok text.toUTF8 ∧
      Document.read text = .ok (object members) ∧ HoldsFields members s := by
  rw [ofBytes.eq_def] at h
  split at h
  · exact absurd h (by simp)
  · split at h
    · exact absurd h (by simp)
    · next bytes text htext =>
      obtain rfl := eq_toUTF8_of_fromUTF8? htext
      rw [ofText] at h
      split at h
      · next d hread =>
        cases d with
        | object members =>
          have hchecks := checks_ofMembers members
          rw [show ofMembers members = .ok s from h] at hchecks
          exact ⟨text, members, rfl, hread, hchecks⟩
        | _ => exact absurd h (by simp [ofDocument])
      all_goals exact absurd h (by simp)

/-- **Loaded settings are valid**, and no object in what stands for the log file repeats a key. -/
theorem valid_of_ofBytes {wording : String → String} {path : RawText}
    {content : Except String ByteArray}
    (h : ofBytes wording path content = .ok s) : s.Valid ∧ s.logFile.HasDistinctKeys := by
  obtain ⟨text, members, -, hread, hs⟩ := holdsFields_of_ofBytes h
  have hkeys := (readable_of_read hread).hasDistinctKeys.2
  exact ⟨hs.valid hkeys, hs.hasDistinctKeys_logFile hkeys⟩

/-- An error in the text of a file has its reason in the text. -/
theorem reason_of_ofText {wording : String → String} {path : RawText} {text : String}
    {e : Failure} (h : ofText wording path text = .error e) :
    (∃ cause, e = .settings cause ∧ Rejects wording path (.ok text.toUTF8) cause) ∨
      Escapes text.toUTF8 e := by
  rw [ofText] at h
  split at h
  · next d hread =>
    cases d with
    | object members =>
      have hchecks := checks_ofMembers members
      rw [show ofMembers members = .error e from h] at hchecks
      rcases hchecks with ⟨cause, rfl, hcause⟩ | ⟨rfl, hhuge⟩
      · exact Or.inl ⟨cause, rfl, .refuses hread hcause⟩
      · exact Or.inr (.overflow hread hhuge)
    | _ =>
      have hrejects : Rejects wording path (.ok text.toUTF8) (.notAnObject path) :=
        .notAnObject hread fun members heq ↦ by simp at heq
      exact Or.inl ⟨_, (Except.error.inj h).symm, hrejects⟩
  · next hread => exact Or.inl ⟨_, (Except.error.inj h).symm, .invalid hread⟩
  · next hread => exact Or.inr (Except.error.inj h ▸ .tooDeep (justified_of_read hread))
  · next count hread => exact Or.inr (Except.error.inj h ▸ .tooManyDigits (justified_of_read hread))

theorem reason_of_ofBytes {wording : String → String} {path : RawText}
    {content : Except String ByteArray} {e : Failure}
    (h : ofBytes wording path content = .error e) :
    (∃ cause, e = .settings cause ∧ Rejects wording (LogPath.plain path) content cause) ∨
      ∃ bytes, content = .ok bytes ∧ Escapes bytes e := by
  rw [ofBytes.eq_def] at h
  split at h
  · exact Or.inl ⟨_, (Except.error.inj h).symm, .unreadable⟩
  · next bytes =>
    split at h
    · next hbytes => exact Or.inr ⟨bytes, rfl, Except.error.inj h ▸ .notText hbytes⟩
    · next text htext =>
      obtain rfl := eq_toUTF8_of_fromUTF8? htext
      exact (reason_of_ofText h).imp id fun hescapes ↦ ⟨_, rfl, hescapes⟩

/-- **Loading a file gives the settings that it holds, an error of the settings, or another error,
and either error for a reason in the file.** -/
theorem load_outcome (wording : String → String) (path : RawText)
    (content : Except String ByteArray) :
    (∃ s text members, ofBytes wording path content = .ok s ∧ content = .ok text.toUTF8 ∧
      Document.read text = .ok (object members) ∧ HoldsFields members s ∧ s.Valid) ∨
      (∃ cause, ofBytes wording path content = .error (.settings cause) ∧
          Rejects wording (LogPath.plain path) content cause) ∨
        ∃ bytes e, ofBytes wording path content = .error e ∧ content = .ok bytes ∧
          Escapes bytes e := by
  rcases h : ofBytes wording path content with e | s
  · rcases reason_of_ofBytes h with ⟨cause, rfl, hrejects⟩ | ⟨bytes, hbytes, hescapes⟩
    · exact Or.inr (Or.inl ⟨cause, rfl, hrejects⟩)
    · exact Or.inr (Or.inr ⟨bytes, e, rfl, hbytes, hescapes⟩)
  · obtain ⟨text, members, htext, hread, hs⟩ := holdsFields_of_ofBytes h
    exact Or.inl ⟨s, text, members, rfl, htext, hread, hs, (valid_of_ofBytes h).1⟩

/-- Bytes that are no text are reported as such, not by an error of the settings. -/
theorem load_notText : ofBytes id "units.json" (.ok ⟨#[0xff]⟩) = .error .notText ∧
    ∀ cause, ofBytes id "units.json" (.ok ⟨#[0xff]⟩) ≠ .error (.settings cause) := by
  have hbytes : ofBytes id "units.json" (.ok ⟨#[0xff]⟩) = .error .notText := rfl
  refine ⟨hbytes, fun cause h ↦ ?_⟩
  rw [hbytes] at h
  exact absurd (Except.error.inj h) (by simp)

end Settings

end Metrology
