import Metrology.Proofs.Document.RoundTrip
import Metrology.Proofs.Settings.Loading

/-!
# Saved settings are loaded again

Settings that have been checked (`Settings.Valid`) are the ones that the object of their fields is
read as (`ofDocument_fields`). Since a document is read as it was written, saving settings and
loading the file gives the same settings again (`ofBytes_save`), symbols, kinds of multipliers and
their order included.

Nothing stands in the way of saving them but a number of significant digits that is itself too long
to be written (`settings_survive`).
-/

namespace Metrology

open Document

namespace Settings

variable {s : Settings}

/-! ### Reading the fields -/

theorem extraMultiplier_of_isUsable (symbol : RawText) {m : Scalar} (h : m.isUsable = true) :
    extraMultiplier symbol (.number m) = .ok m := by
  cases m with
  | int n =>
    rw [Scalar.isUsable, Bool.and_eq_true, bne_iff_ne] at h
    rw [extraMultiplier, if_neg h.1, Scalar.toDouble, if_pos h.2]
  | double x =>
    rw [Scalar.isUsable_double] at h
    rw [extraMultiplier, if_pos h]

/-- Added units are read from the members that hold them. -/
theorem mapM_extraUnit {units : List (RawText × Scalar)}
    (hsymbols : ∀ unit ∈ units, unit.1.isEmpty = false)
    (h : ∀ unit ∈ units, unit.2.isUsable = true) :
    (unitMembers units).mapM extraUnit = .ok units := by
  induction units with
  | nil => rfl
  | cons unit units ih =>
    rw [List.forall_mem_cons] at hsymbols h
    have hunit : extraUnit (unit.1, number unit.2) = .ok unit := by
      rw [extraUnit, if_neg (by simp [hsymbols.1]), extraMultiplier_of_isUsable _ h.1]
      rfl
    have hunits := ih hsymbols.2 h.2
    rw [unitMembers] at hunits ⊢
    rw [List.map_cons, List.mapM_cons, hunits]
    dsimp only
    rw [hunit]
    rfl

/-- The members of the object of all fields. -/
def members (s : Settings) : List (RawText × Document) :=
  [("parse_compound", .bool s.preferences.parseCompound),
   ("memoize", .bool s.preferences.memoize),
   ("fail_loud", .bool s.preferences.failLoud),
   ("significant_digits", .number (.int s.significantDigits)),
   ("extra_units", .object (unitMembers s.extraUnits)),
   ("log_file", s.logFile),
   ("verbose", .bool s.verbose)].map fun (key, value) ↦ (.ofString key, value)

theorem fields_eq (s : Settings) : s.fields = .object s.members := rfl

theorem keys_members (s : Settings) : s.members.map Prod.fst = keys.map RawText.ofString := rfl

theorem unknownKeys_members (s : Settings) : unknownKeys s.members = [] := by
  rw [unknownKeys, keys_members, List.filter_eq_nil_iff.2 fun key hkey ↦ by simpa using hkey,
    List.mergeSort_nil]

theorem digitsField_members (h : 1 ≤ s.significantDigits) :
    digitsField s.members = .ok s.significantDigits := by
  have hfield : field? s.members "significant_digits" =
      some (.number (.int s.significantDigits)) := rfl
  rw [digitsField, hfield]
  dsimp only
  rw [if_pos (by omega), Int.toNat_natCast]

theorem extraUnitsField_members (hsymbols : ∀ entry ∈ s.extraUnits, entry.1.isEmpty = false)
    (h : ∀ entry ∈ s.extraUnits, entry.2.isUsable = true) :
    extraUnitsField s.members = .ok s.extraUnits := by
  have hfield : field? s.members "extra_units" =
      some (.object (unitMembers s.extraUnits)) := rfl
  rw [extraUnitsField, hfield]
  exact mapM_extraUnit hsymbols h

/-- **Settings that pass all checks are read from their fields.** -/
theorem ofDocument_fields (h : s.Valid) (path : RawText) : ofDocument path s.fields = .ok s := by
  show ofMembers s.members = .ok s
  rw [ofMembers, unknownKeys_members, digitsField_members h.digits_pos,
    extraUnitsField_members h.symbols_ne h.isUsable]
  rfl

/-! ### Writing the fields -/

/-- A whole number that is usable as a multiplier is not too long to be written. -/
theorem numberError?_of_isUsable {m : Scalar} (h : m.isUsable = true) : numberError? m = none := by
  cases m with
  | double x => rfl
  | int n =>
    rw [Scalar.isUsable, Bool.and_eq_true] at h
    exact numberError?_int_eq_none_iff.2
      ((Double.natAbs_lt_tenTo_of_isFinite_ofInt h.2).trans_le (Double.tenTo_le (by decide)))

theorem textError?_ofString (text : String) : textError? (.ofString text) = none := by
  rw [textError?, RawText.isWritable, RawText.toString?_ofString]
  rfl

/-- Added units can be written if their symbols can. -/
theorem membersError?_unitMembers {units : List (RawText × Scalar)}
    (hsymbols : ∀ unit ∈ units, unit.1.isWritable = true)
    (h : ∀ unit ∈ units, unit.2.isUsable = true) : membersError? (unitMembers units) = none := by
  induction units with
  | nil => rfl
  | cons unit units ih =>
    rw [List.forall_mem_cons] at hsymbols h
    have hunits := ih hsymbols.2 h.2
    rw [unitMembers] at hunits ⊢
    rw [List.map_cons, membersError?, textError?, if_pos hsymbols.1, writeError?,
      numberError?_of_isUsable h.1, hunits]
    rfl

/-- Of the fields of checked settings only the digits may be too long. -/
theorem writeError?_fields (h : s.Valid)
    (hsymbols : ∀ entry ∈ s.extraUnits, entry.1.isWritable = true)
    (hlog : s.logFile.writeError? = none) :
    s.fields.writeError? = numberError? (.int s.significantDigits) := by
  rw [fields_eq, writeError?, members]
  simp only [List.map_cons, List.map_nil, membersError?, textError?_ofString, Option.none_or,
    Option.or_none, writeError?, hlog, membersError?_unitMembers hsymbols h.isUsable]

/-- The fields of checked settings can be read, two levels further out than the log file. -/
theorem readable_fields (h : s.Valid) (hkeys : s.logFile.HasDistinctKeys)
    (hdepth : s.logFile.depth ≤ maxFieldDepth) : Readable maxNesting s.fields := by
  have hunits : Readable maxFieldDepth (object (unitMembers s.extraUnits)) := by
    refine readable_object ?_ ?_
    · rw [unitMembers, List.map_map]
      exact h.nodup
    · intro member hmem
      obtain ⟨unit, -, rfl⟩ := List.mem_map.1 hmem
      exact readable_number unit.2 _
  have hflag : ∀ value, Readable maxFieldDepth (bool value) := fun _ ↦ ⟨trivial, Nat.zero_le _⟩
  have hfields : Readable (maxFieldDepth + 1) (object s.members) := by
    refine readable_object (by rw [keys_members]; decide) ?_
    simp only [members, List.map_cons, List.map_nil, List.forall_mem_cons]
    exact ⟨hflag _, hflag _, hflag _, readable_number _ _, hunits, ⟨hkeys, hdepth⟩, hflag _,
      by simp⟩
  exact ⟨hfields.hasDistinctKeys, hfields.depth_le.trans (by decide)⟩

/-! ### Files -/

/-- What can be written is saved. -/
theorem save_eq (hdepth : s.logFile.depth ≤ maxFieldDepth) :
    s.save = match s.fields.write with
      | .ok written => .ok written
      | .error .unwritableText => .error .unwritableText
      | .error .tooManyDigits => .error (.number .unwritableDigits) := by
  rw [save, toDocument, if_neg (Nat.not_lt.2 hdepth)]
  rcases hwrite : s.fields.write with (_ | _) | text <;> simp only [bind, Except.bind, hwrite]

/-- **Saved settings are loaded again.** -/
theorem ofBytes_save (h : s.Valid) (hlog : s.logFile.HasDistinctKeys) {text : String}
    (hsave : s.save = .ok text) (wording : String → String) (path : RawText) :
    ofBytes wording path (.ok text.toUTF8) = .ok s := by
  have hdepth : s.logFile.depth ≤ maxFieldDepth := by
    by_contra hdeep
    rw [save, toDocument, if_pos (Nat.lt_of_not_le hdeep)] at hsave
    exact absurd hsave (by simp [bind, Except.bind])
  rw [save_eq hdepth] at hsave
  have hwrite : s.fields.write = .ok text := by
    split at hsave
    · next written hwritten => rw [hwritten, Except.ok.inj hsave]
    all_goals exact absurd hsave (by simp)
  rw [ofBytes, fromUTF8?_toUTF8]
  simp only [ofText, read_write (readable_fields h hlog hdepth) hwrite]
  exact ofDocument_fields h _

/-- Settings that were loaded are loaded again from the file they are saved to, whatever stands for
their log file. -/
theorem ofBytes_resaved {wording : String → String} {path path' : RawText}
    {content : Except String ByteArray} {text : String}
    (h : ofBytes wording path content = .ok s) (hsave : s.save = .ok text) :
    ofBytes wording path' (.ok text.toUTF8) = .ok s :=
  ofBytes_save (valid_of_ofBytes h).1 (valid_of_ofBytes h).2 hsave wording path'

/-- Checked settings whose texts are proper ones are saved unless the number of significant digits
is itself too long to be written. -/
theorem save_of_valid (h : s.Valid)
    (hsymbols : ∀ entry ∈ s.extraUnits, entry.1.isWritable = true)
    (hlog : s.logFile.writeError? = none) (hdepth : s.logFile.depth ≤ maxFieldDepth) :
    (s.significantDigits < tenTo Text.maxDigits → ∃ text, s.save = .ok text) ∧
      (tenTo Text.maxDigits ≤ s.significantDigits →
        s.save = .error (.number .unwritableDigits)) := by
  rw [save_eq hdepth, write, writeError?_fields h hsymbols hlog, numberError?, Int.natAbs_natCast]
  generalize tenTo Text.maxDigits = bound
  refine ⟨fun hfew ↦ ?_, fun hmany ↦ ?_⟩
  · rw [if_pos hfew]
    exact ⟨_, rfl⟩
  · rw [if_neg (Nat.not_lt.2 hmany)]

/-- **Settings survive saving and loading.** Checked settings whose texts are proper ones are loaded
from the file they are saved to, and there is one unless the number of significant digits is itself
too long to be written. -/
theorem settings_survive (h : s.Valid)
    (hsymbols : ∀ entry ∈ s.extraUnits, entry.1.isWritable = true)
    (hlog : s.logFile = .null ∨ ∃ file : String, s.logFile = .text (.ofString file)) :
    (∀ text wording path, s.save = .ok text → ofBytes wording path (.ok text.toUTF8) = .ok s) ∧
      if s.significantDigits < tenTo Text.maxDigits then ∃ text, s.save = .ok text
      else s.save = .error (.number .unwritableDigits) := by
  obtain ⟨hkeys, herror, hdepth⟩ : s.logFile.HasDistinctKeys ∧ s.logFile.writeError? = none ∧
      s.logFile.depth = 0 := by
    rcases hlog with hnone | ⟨file, hfile⟩
    · exact hnone ▸ ⟨trivial, rfl, rfl⟩
    · exact hfile ▸ ⟨trivial, textError?_ofString file, rfl⟩
  refine ⟨fun text wording path hsave ↦ ofBytes_save h hkeys hsave wording path, ?_⟩
  have hsave := save_of_valid h hsymbols herror (hdepth ▸ Nat.zero_le _)
  generalize tenTo Text.maxDigits = bound at hsave ⊢
  split
  · next hfew => exact hsave.1 hfew
  · next hmany => exact hsave.2 (Nat.le_of_not_lt hmany)

/-- Settings with marks, a control character and a symbol from another script, a whole multiplier
beyond the precision of a double, and one below the normal doubles. -/
def sample : Settings where
  preferences := { memoize := false }
  significantDigits := 17
  extraUnits := [(.ofString "\"\\\x07\n", .int (-(tenTo 40 : Int))), (.ofString "Ω\u2028😀",
    .double (.finite true ⟨1, by decide⟩)), (.ofString " ", .int 1)]
  logFile := .text (.ofString "logs/\"unités\".log")

theorem sample_survives : sample.Valid ∧
    (∀ text wording path, sample.save = .ok text →
      ofBytes wording path (.ok text.toUTF8) = .ok sample) ∧
      ∃ text, sample.save = .ok text := by
  have hvalid : sample.Valid := ⟨by decide, by decide, by decide, by decide +kernel⟩
  have hsymbols : ∀ entry ∈ sample.extraUnits, entry.1.isWritable = true := by decide
  have hdigits : sample.significantDigits < tenTo Text.maxDigits :=
    (show sample.significantDigits < tenTo 2 by decide).trans_le (Double.tenTo_le (by decide))
  have hsurvive := settings_survive hvalid hsymbols (Or.inr ⟨_, rfl⟩)
  rw [if_pos hdigits] at hsurvive
  exact ⟨hvalid, hsurvive⟩

/-- Settings that pass all checks and differ from the default ones in their digits only, of which
they have too many to be saved. -/
theorem long_digits_unsaved :
    let s : Settings := { significantDigits := tenTo Text.maxDigits }
    s.Valid ∧ s.logFile = .null ∧ s.save = .error (.number .unwritableDigits) := by
  have hpos := Double.tenTo_pos Text.maxDigits
  generalize hdigits : tenTo Text.maxDigits = digits at hpos ⊢
  intro s
  have hvalid : s.Valid := ⟨hpos, by simp [s], by simp [s], by simp [s]⟩
  have hsave := save_of_valid hvalid (by simp [s]) rfl (Nat.zero_le _)
  exact ⟨hvalid, rfl, hsave.2 hdigits.le⟩

end Settings

end Metrology
