import Metrology.Proofs.Expression.Value
import Metrology.Proofs.Settings.Loading

/-!
# Which objects are settings

Each field of the settings has a declared type and range (`Settings.Declared`). An object is
accepted exactly if all its keys are fields and each value, but that of the log file, is as
declared; and otherwise the error is one of the settings (`ofMembers_outcome`).

The log file is declared like the other fields, a text or null, and is the one that is not checked:
any value passes there (`accepts_undeclared_logFile`).

Numbers are taken to be finite throughout, as those are that a text denotes below the range of the
doubles. A larger whole number is no error of the settings but an overflow.
-/

namespace Metrology

namespace Document

mutual

/-- Every number stands for a finite double. -/
def HasFiniteNumbers : Document → Prop
  | number value => value.IsFinite
  | array elements => elementsHaveFiniteNumbers elements
  | object members => membersHaveFiniteNumbers members
  | _ => True

/-- Every number within some elements stands for a finite double. -/
def elementsHaveFiniteNumbers : List Document → Prop
  | [] => True
  | element :: elements => element.HasFiniteNumbers ∧ elementsHaveFiniteNumbers elements

/-- Every number within some members stands for a finite double. -/
def membersHaveFiniteNumbers : List (RawText × Document) → Prop
  | [] => True
  | (_, value) :: members => value.HasFiniteNumbers ∧ membersHaveFiniteNumbers members

end

theorem hasFiniteNumbers_of_mem {members : List (RawText × Document)} {member : RawText × Document}
    (h : membersHaveFiniteNumbers members) (hmem : member ∈ members) :
    member.2.HasFiniteNumbers := by
  induction members with
  | nil => exact absurd hmem List.not_mem_nil
  | cons first members ih =>
    rcases List.mem_cons.1 hmem with rfl | hmem
    · exact h.1
    · exact ih h.2 hmem

end Document

open Document

namespace Settings

variable {members entries : List (RawText × Document)} {key : String} {value : Document}

/-! ### Declared types -/

/-- The fields that are true or false. -/
def flagKeys : List String := ["parse_compound", "memoize", "fail_loud", "verbose"]

/-- A multiplier that a unit can have, under a symbol that is not empty. -/
structure DeclaredUnit (entry : RawText × Document) : Prop where
  symbol_ne : entry.1.isEmpty = false
  exists_multiplier : ∃ m : Scalar, entry.2 = number m ∧ m.IsFinite ∧ m.isZero = false

/-- The values of the declared type and range, field by field. -/
inductive Declared : String → Document → Prop
  | flag {key : String} (hkey : key ∈ flagKeys) (value : Bool) : Declared key (.bool value)
  | digits {n : Int} (h : 1 ≤ n) : Declared "significant_digits" (.number (.int n))
  | extraUnits {entries : List (RawText × Document)} (h : ∀ entry ∈ entries, DeclaredUnit entry) :
      Declared "extra_units" (.object entries)
  | noLogFile : Declared "log_file" .null
  | logFile (path : RawText) : Declared "log_file" (.text path)

namespace Declared

theorem exists_bool (h : Declared key value) (hkey : key ∈ flagKeys) : ∃ b, value = bool b := by
  cases h with
  | flag _ b => exact ⟨b, rfl⟩
  | digits | extraUnits | noLogFile | logFile => exact absurd hkey (by decide)

theorem exists_digits (h : Declared key value) (hkey : key = "significant_digits") :
    ∃ n : Int, 1 ≤ n ∧ value = number (.int n) := by
  cases h with
  | flag hflag => exact absurd (hkey ▸ hflag) (by decide)
  | digits hn => exact ⟨_, hn, rfl⟩
  | extraUnits | noLogFile | logFile => exact absurd hkey (by decide)

theorem exists_entries (h : Declared key value) (hkey : key = "extra_units") :
    ∃ entries, (∀ entry ∈ entries, DeclaredUnit entry) ∧ value = object entries := by
  cases h with
  | flag hflag => exact absurd (hkey ▸ hflag) (by decide)
  | extraUnits hentries => exact ⟨_, hentries, rfl⟩
  | digits | noLogFile | logFile => exact absurd hkey (by decide)

theorem eq_null_or_text (h : Declared key value) (hkey : key = "log_file") :
    value = null ∨ ∃ path, value = text path := by
  cases h with
  | flag hflag => exact absurd (hkey ▸ hflag) (by decide)
  | noLogFile => exact Or.inl rfl
  | logFile path => exact Or.inr ⟨path, rfl⟩
  | digits | extraUnits => exact absurd hkey (by decide)

end Declared

/-! ### Checks that succeed -/

/-- In an object without repeated keys, the value under a key is that of the member with the key. -/
theorem field?_eq_some_iff (hkeys : (members.map Prod.fst).Nodup) :
    field? members key = some value ↔ (RawText.ofString key, value) ∈ members := by
  rw [field?]
  constructor
  · intro h
    obtain ⟨before, after, rfl, -⟩ := List.lookup_eq_some_iff.1 h
    exact List.mem_append_right before List.mem_cons_self
  · intro h
    obtain ⟨before, after, rfl⟩ := List.append_of_mem h
    refine List.lookup_eq_some_iff.2 ⟨before, after, rfl, fun member hmem ↦ ?_⟩
    rw [List.map_append, List.nodup_append] at hkeys
    have hne := hkeys.2.2 member.1 (List.mem_map_of_mem hmem) (.ofString key)
      (List.mem_map_of_mem List.mem_cons_self)
    simpa using hne.symm

theorem exists_flag {byDefault : Bool} (hkey : key ∈ flagKeys)
    (h : ∀ value, field? members key = some value → Declared key value) :
    ∃ b, flag members key byDefault = .ok b := by
  rw [flag]
  rcases hfield : field? members key with _ | value
  · exact ⟨byDefault, rfl⟩
  · obtain ⟨b, rfl⟩ := (h value hfield).exists_bool hkey
    exact ⟨b, rfl⟩

theorem exists_digitsField
    (h : ∀ value, field? members "significant_digits" = some value →
      Declared "significant_digits" value) :
    ∃ digits, digitsField members = .ok digits := by
  rw [digitsField]
  rcases hfield : field? members "significant_digits" with _ | value
  · exact ⟨3, rfl⟩
  · obtain ⟨n, hn, rfl⟩ := (h value hfield).exists_digits rfl
    exact ⟨n.toNat, if_pos hn⟩

/-- Declared units pass their checks. -/
theorem exists_mapM_extraUnit (h : ∀ entry ∈ entries, DeclaredUnit entry) :
    ∃ units, entries.mapM extraUnit = .ok units := by
  have hchecks := checks_mapM_extraUnit entries
  generalize entries.mapM extraUnit = outcome at hchecks ⊢
  rcases outcome with e | units
  · rcases hchecks with ⟨cause, -, hcause⟩ | ⟨-, symbol, n, hmem, hhuge⟩
    · cases hcause with
      | emptySymbol hmem hempty =>
        exact absurd hempty (by rw [(h _ hmem).symbol_ne]; simp)
      | unusable hmem hunusable =>
        obtain ⟨m, hm, hfinite, hzero⟩ := (h _ hmem).exists_multiplier
        exact absurd (hfinite.isUsable hzero) (by rw [hunusable m hm]; simp)
    · obtain ⟨m, hm, ⟨x, hx, -⟩, -⟩ := (h _ hmem).exists_multiplier
      obtain rfl : .int n = m := number.inj hm
      rw [Scalar.toDouble, if_neg (by simp [hhuge])] at hx
      exact absurd hx (by simp)
  · exact ⟨units, rfl⟩

theorem exists_extraUnitsField
    (h : ∀ value, field? members "extra_units" = some value → Declared "extra_units" value) :
    ∃ units, extraUnitsField members = .ok units := by
  rw [extraUnitsField]
  rcases hfield : field? members "extra_units" with _ | value
  · exact ⟨[], rfl⟩
  · obtain ⟨entries, hentries, rfl⟩ := (h value hfield).exists_entries rfl
    exact exists_mapM_extraUnit hentries

/-- An object is accepted if its keys are fields and all values but the log file are as declared. -/
theorem exists_ofMembers (hknown : ∀ name ∈ members.map Prod.fst, name ∈ keys.map RawText.ofString)
    (h : ∀ key ∈ keys, key ≠ "log_file" → ∀ value, field? members key = some value →
      Declared key value) : ∃ s, ofMembers members = .ok s := by
  have hnil : unknownKeys members = [] :=
    List.eq_nil_iff_forall_not_mem.2 fun name hname ↦
      (mem_unknownKeys.1 hname).2 (hknown name (mem_unknownKeys.1 hname).1)
  have hflag : ∀ {key byDefault}, key ∈ flagKeys → ∃ b, flag members key byDefault = .ok b :=
    fun {key _} hkey ↦ exists_flag hkey <| h key
      (List.forall_iff_forall_mem.1 (by decide : flagKeys.Forall (· ∈ keys)) key hkey)
      (List.forall_iff_forall_mem.1 (by decide : flagKeys.Forall (· ≠ "log_file")) key hkey)
  obtain ⟨parseCompound, hparse⟩ := @hflag "parse_compound" true (by decide)
  obtain ⟨memoize, hmemoize⟩ := @hflag "memoize" true (by decide)
  obtain ⟨failLoud, hloud⟩ := @hflag "fail_loud" true (by decide)
  obtain ⟨verbose, hverbose⟩ := @hflag "verbose" false (by decide)
  obtain ⟨digits, hdigits⟩ := exists_digitsField (h "significant_digits" (by decide) (by decide))
  obtain ⟨units, hunits⟩ := exists_extraUnitsField (h "extra_units" (by decide) (by decide))
  rw [ofMembers]
  simp only [hnil, hparse, hmemoize, hloud, hverbose, hdigits, hunits]
  exact ⟨_, rfl⟩

/-! ### What is accepted -/

/-- Added units that have passed their checks are as declared. -/
theorem declaredUnit_of_mem {units : List (RawText × Scalar)} (h : AreUsable units)
    {entry : RawText × Document} (hmem : entry ∈ unitMembers units) : DeclaredUnit entry := by
  obtain ⟨unit, hunit, rfl⟩ := List.mem_map.1 hmem
  obtain ⟨hsymbol, husable⟩ := h unit hunit
  exact ⟨hsymbol, unit.2, rfl, Scalar.toDouble_of_isUsable husable,
    Scalar.isZero_of_isUsable husable⟩

/-- A field of an accepted object is as declared, unless it is the log file. -/
theorem HoldsFields.declared {s : Settings} (h : HoldsFields members s) (hkey : key ∈ keys)
    (hfield : field? members key = some value) : Declared key value ∨ key = "log_file" := by
  obtain ⟨-, hparse, hmemoize, hloud, hverbose, hdigits, hpos, hunits, husable, -⟩ := h
  simp only [keys, List.mem_cons, List.not_mem_nil, or_false] at hkey
  rcases hkey with rfl | rfl | rfl | rfl | rfl | rfl | rfl
  · rw [hfield, Option.getD_some] at hparse
    exact Or.inl (hparse ▸ .flag (by decide) _)
  · rw [hfield, Option.getD_some] at hmemoize
    exact Or.inl (hmemoize ▸ .flag (by decide) _)
  · rw [hfield, Option.getD_some] at hloud
    exact Or.inl (hloud ▸ .flag (by decide) _)
  · rw [hfield, Option.getD_some] at hdigits
    exact Or.inl (hdigits ▸ .digits (by exact_mod_cast hpos))
  · rw [hfield, Option.getD_some] at hunits
    exact Or.inl (hunits ▸ .extraUnits fun _ ↦ declaredUnit_of_mem husable)
  · exact Or.inr rfl
  · rw [hfield, Option.getD_some] at hverbose
    exact Or.inl (hverbose ▸ .flag (by decide) _)

/-- **An object is accepted exactly if its keys are fields and its values, but the log file, are as
declared.** Otherwise there is an error of the settings, and no other one. -/
theorem ofMembers_outcome (hkeys : (members.map Prod.fst).Nodup)
    (hfinite : membersHaveFiniteNumbers members) :
    ((∃ s, ofMembers members = .ok s) ↔ ∀ member ∈ members, ∃ key ∈ keys,
      member.1 = .ofString key ∧ (Declared key member.2 ∨ key = "log_file")) ∧
    ∀ e, ofMembers members = .error e →
      e.className = "ConfigurationError" ∧ ∃ cause, e = .settings cause := by
  have hchecks := checks_ofMembers members
  refine ⟨⟨fun ⟨s, hs⟩ member hmem ↦ ?_, fun h ↦ ?_⟩, fun e he ↦ ?_⟩
  · rw [hs] at hchecks
    have hholds : HoldsFields members s := hchecks
    obtain ⟨key, hkey, hname⟩ := List.mem_map.1 (hholds.known _ (List.mem_map_of_mem hmem))
    have hfield : field? members key = some member.2 :=
      (field?_eq_some_iff hkeys).2 (by rw [hname]; exact hmem)
    exact ⟨key, hkey, hname.symm, hholds.declared hkey hfield⟩
  · refine exists_ofMembers (fun name hname ↦ ?_) fun key hkey hne value hfield ↦ ?_
    · obtain ⟨member, hmem, rfl⟩ := List.mem_map.1 hname
      obtain ⟨key, hkey, heq, -⟩ := h member hmem
      exact List.mem_map.2 ⟨key, hkey, heq.symm⟩
    · obtain ⟨key', -, heq, hdeclared⟩ := h _ ((field?_eq_some_iff hkeys).1 hfield)
      obtain rfl := RawText.ofString_injective heq
      exact hdeclared.resolve_right hne
  · rw [he] at hchecks
    rcases hchecks with ⟨cause, rfl, -⟩ | ⟨-, entries, hfield, symbol, n, hmem, hhuge⟩
    · exact ⟨rfl, cause, rfl⟩
    · -- a whole number that is too large is not finite
      have hmember := (field?_eq_some_iff hkeys).1 hfield
      have hobject : membersHaveFiniteNumbers entries := hasFiniteNumbers_of_mem hfinite hmember
      obtain ⟨x, hx, -⟩ : (Scalar.int n).IsFinite := hasFiniteNumbers_of_mem hobject hmem
      rw [Scalar.toDouble, if_neg (by simp [hhuge])] at hx
      exact absurd hx (by simp)

/-- True is not a number of digits. -/
theorem ofMembers_digits_true :
    (([(.ofString "significant_digits", .bool true)] : List (RawText × Document)).map
        Prod.fst).Nodup ∧
      membersHaveFiniteNumbers [(.ofString "significant_digits", .bool true)] ∧
      ¬∃ s, ofMembers [(.ofString "significant_digits", .bool true)] = .ok s := by
  have hkeys : (([(.ofString "significant_digits", .bool true)] :
    List (RawText × Document)).map Prod.fst).Nodup := List.pairwise_singleton _ _
  refine ⟨hkeys, ⟨trivial, trivial⟩, fun haccepted ↦ ?_⟩
  have hall := (ofMembers_outcome hkeys ⟨trivial, trivial⟩).1.1 haccepted
  obtain ⟨key, -, hname, hdeclared⟩ := hall _ (List.mem_singleton_self _)
  obtain rfl : "significant_digits" = key := RawText.ofString_injective hname
  rcases hdeclared with hdeclared | hkey
  · obtain ⟨n, -, hn⟩ := hdeclared.exists_digits rfl
    exact absurd hn (by simp)
  · exact absurd hkey (by decide)

/-- The log file may be true, though it is declared as a text or null. -/
theorem accepts_undeclared_logFile :
    (([(.ofString "log_file", .bool true)] : List (RawText × Document)).map Prod.fst).Nodup ∧
      membersHaveFiniteNumbers [(.ofString "log_file", .bool true)] ∧
      (∃ s, ofMembers [(.ofString "log_file", .bool true)] = .ok s) ∧
      ¬Declared "log_file" (.bool true) := by
  have hkeys : (([(.ofString "log_file", .bool true)] :
    List (RawText × Document)).map Prod.fst).Nodup := List.pairwise_singleton _ _
  refine ⟨hkeys, ⟨trivial, trivial⟩, ?_, fun h ↦ ?_⟩
  · refine exists_ofMembers (by decide) fun key _ hne value hfield ↦ ?_
    have hmem := (field?_eq_some_iff hkeys).1 hfield
    exact absurd (RawText.ofString_injective (Prod.mk.inj (List.mem_singleton.1 hmem)).1) hne
  · rcases h.eq_null_or_text rfl with hnull | ⟨path, hpath⟩
    · exact absurd hnull (by simp)
    · exact absurd hpath (by simp)

end Settings

end Metrology
