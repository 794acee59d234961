import Metrology.Proofs.CommandLine.Outcome
import Metrology.Proofs.Workspace.Agreement

/-!
# Each unit is judged on its own

A check runs all its units through one converter, which memoizes what it parses. That makes no
difference to the verdicts: a unit is judged by what the registry makes of it
(`Registry.judgement`), and the memoized entries change no judgement, since no whole number is
converted (`Serves.judgement_eq`). Over the registry of a call nothing but the failure to resolve a
unit can go wrong, so every unit has its verdict (`exists_judges`).

The lines of the verdicts are written one after the other, up to the first unit that is no proper
text (`judge_append`). If there is none, a summary stands under the lines if any unit is invalid.
Its counts tally the classes of the failures (`Tallies`), so they add up to the number of invalid
units.
-/

namespace Metrology

/-! ### Judgements -/

namespace Registry

variable {r r' : Registry} {unit : RawText}

/-- What one of a unit is in internal units, if expressions are parsed or if not. -/
def judgement (r : Registry) (parse : Bool) (unit : RawText) : Except Failure Value :=
  if unit = "" then .ok (.ofDouble 1)
  else match r.nonlinear? unit with
    | some nonlinear =>
      ((Direction.toInternal.map nonlinear).run (.ofDouble 1)).mapError Failure.number
    | none => answerWith .toInternal true (.ofDouble 1) (r.resolved parse unit)

theorem judgement_true (r : Registry) (unit : RawText) :
    r.judgement true unit = r.answerBy .toInternal true (.ofDouble 1) (some unit) := by
  rw [judgement]
  split
  · next h => rw [h]; rfl
  · next h =>
    rcases hnonlinear : r.nonlinear? unit with _ | nonlinear
    · rw [answerBy_linear h hnonlinear, resolved_true]
    · rw [answerBy_nonlinear h hnonlinear]

end Registry

namespace CommandLine

open Registry

variable {r : Registry} {c : Converter} {noParse : Bool} {unit : RawText}

/-- A converter answers a check with the judgement of its registry. -/
theorem toInternal_fst (hvalid : c.registry.Valid) (noParse : Bool) (unit : RawText) :
    (c.toInternal (checkRequest noParse) (.ofDouble 1) (some unit)).1 =
      c.registry.judgement (!noParse) unit := by
  have hconversion :=
    c.conversion .toInternal (checkRequest noParse) (.ofDouble 1) (some unit)
  rw [Converter.toInternal, judgement]
  generalize c.convertBy .toInternal (checkRequest noParse) (.ofDouble 1) (some unit) = result
    at hconversion ⊢
  cases hconversion with
  | idle hunit =>
    rw [if_pos (Option.some.inj (hunit.resolve_left (by simp)))]
  | nonlinear hsymbol hnonlinear =>
    rw [if_neg hsymbol, hnonlinear, Converter.finish_fst]
  | linear hsymbol hnonlinear =>
    rw [if_neg hsymbol, hnonlinear, Converter.settle_fst,
      Converter.resolve_eq_resolved hvalid _ hnonlinear]
    rfl

/-- Over a registry in which nothing else can go wrong, a unit is resolved or it is not. -/
theorem exists_judgement_eq (hr : Settings.WellBuilt r) (noParse : Bool) (unit : RawText) :
    ∃ answer : Except UnitError Value,
      r.judgement (!noParse) unit = answer.mapError Failure.unit := by
  let fresh : Converter := { registry := r }
  have hcontained : Contained r [some unit] true
      (fresh.toInternal (checkRequest noParse) (.ofDouble 1) (some unit)).1 :=
    Converter.contained_convertBy (c := fresh) hr.valid hr.total rfl .toInternal
      (checkRequest noParse) (some unit)
  rw [← toInternal_fst (c := fresh) hr.valid noParse unit]
  generalize (fresh.toInternal _ _ _).1 = outcome at hcontained ⊢
  cases hcontained with
  | answer value => exact ⟨.ok value, rfl⟩
  | refused _ cause => exact ⟨.error cause, rfl⟩
  | overflow _ hoverflows => exact absurd hoverflows (hr.onlyDoubles.not_overflows _)

/-! ### One converter for all units -/

/-- A converter that can stand for a fresh one over the registry. -/
structure Serves (r : Registry) (noParse : Bool) (c : Converter) : Prop where
  valid : c.registry.Valid
  extends_registry : Extends r c.registry
  registry_eq : noParse = true → c.registry = r

theorem serves_self (hr : Settings.WellBuilt r) (noParse : Bool) (preferences : Preferences) :
    Serves r noParse { registry := r, preferences } :=
  ⟨hr.valid, extends_refl r, fun _ ↦ rfl⟩

theorem Serves.judgement_eq (h : Serves r noParse c) (unit : RawText) :
    c.registry.judgement (!noParse) unit = r.judgement (!noParse) unit := by
  rcases hparse : noParse with _ | _
  · rw [Bool.not_false, judgement_true, judgement_true]
    exact answerBy_eq_of_extends h.extends_registry (Or.inr rfl) .toInternal true (some unit)
  · rw [h.registry_eq hparse]

theorem Serves.toInternal (h : Serves r noParse c) (unit : RawText) :
    Serves r noParse (c.toInternal (checkRequest noParse) (.ofDouble 1) (some unit)).2 := by
  have hused := c.used_convertBy .toInternal (checkRequest noParse) (.ofDouble 1) (some unit)
  refine ⟨h.valid.grows hused.growsBy.grows, h.extends_registry.grows hused.growsBy.grows,
    fun hparse ↦ ?_⟩
  refine (Converter.registry_convertBy_of_not_parse ?_ .toInternal (.ofDouble 1)
    (some unit)).trans (h.registry_eq hparse)
  show (!noParse) = false
  rw [hparse, Bool.not_true]

/-- The verdicts that a registry makes of units. -/
structure Judges (r : Registry) (noParse : Bool) (units : List RawText) (verdicts : List Verdict) :
    Prop where
  units_eq : verdicts.map Verdict.unit = units
  answer_eq : ∀ v ∈ verdicts, r.judgement (!noParse) v.unit = v.answer.mapError Failure.unit

/-- Every unit has a verdict. -/
theorem exists_judges (hr : Settings.WellBuilt r) (noParse : Bool) (units : List RawText) :
    ∃ verdicts, Judges r noParse units verdicts := by
  induction units with
  | nil => exact ⟨[], rfl, List.forall_mem_nil _⟩
  | cons unit units ih =>
    obtain ⟨answer, hanswer⟩ := exists_judgement_eq hr noParse unit
    obtain ⟨verdicts, hunits, hverdicts⟩ := ih
    exact ⟨⟨unit, answer⟩ :: verdicts, congrArg (unit :: ·) hunits,
      List.forall_mem_cons.2 ⟨hanswer, hverdicts⟩⟩

/-- A line can be written just if its unit can: what is wrong with a proper text is told in one. -/
theorem isWritable_line (hr : Settings.WellBuilt r) {v : Verdict}
    (h : r.judgement (!noParse) v.unit = v.answer.mapError Failure.unit) :
    v.line.isWritable = v.unit.isWritable := by
  rcases hunit : v.unit.isWritable with _ | _
  · rw [Verdict.line]
    split <;> simp [hunit]
  · refine Verdict.isWritable_line hunit fun cause hcause ↦ ?_
    have hspeaks := Converter.speaks_convertBy (c := { registry := r }) (List.forall_mem_nil _)
      .toInternal (checkRequest noParse) (.ofDouble 1) (RawText.isWritable_of_mem_some hunit)
    have hfst := toInternal_fst (c := { registry := r }) hr.valid noParse v.unit
    rw [h, hcause] at hfst
    exact hspeaks.failsProperly _ hfst _ rfl

/-- What becomes of the next unit: its line, and then those of the others, if it can be written. -/
theorem judge_cons (hr : Settings.WellBuilt r) (h : Serves r noParse c) {v : Verdict}
    (hv : r.judgement (!noParse) v.unit = v.answer.mapError Failure.unit) (rest : List RawText) :
    ∃ c', Serves r noParse c' ∧ judge noParse c (v.unit :: rest) =
      if v.unit.isWritable then (judge noParse c' rest).map (v :: ·) id
      else ([], some .unwritableText, c') := by
  refine ⟨_, h.toInternal v.unit, ?_⟩
  have hfst := (toInternal_fst h.valid noParse v.unit).trans ((h.judgement_eq v.unit).trans hv)
  have hverdict : verdictOf v.unit (v.answer.mapError Failure.unit) = v.written := by
    obtain ⟨unit, _ | _⟩ := v <;> rfl
  rw [judge]
  generalize c.toInternal (checkRequest noParse) (.ofDouble 1) (some v.unit) = outcome at hfst ⊢
  obtain ⟨_, c'⟩ := outcome
  obtain rfl := hfst
  simp only [hverdict, Verdict.written, isWritable_line hr hv]
  cases v.unit.isWritable <;> rfl

/-- **Every unit gets the verdict that it would get alone**, as long as their lines can be written.
-/
theorem judge_append (hr : Settings.WellBuilt r) (h : Serves r noParse c) {units : List RawText}
    {verdicts : List Verdict} (hjudges : Judges r noParse units verdicts)
    (hunits : ∀ unit ∈ units, unit.isWritable = true) (rest : List RawText) :
    ∃ c', Serves r noParse c' ∧
      judge noParse c (units ++ rest) = (judge noParse c' rest).map (verdicts ++ ·) id := by
  -- A unit changes the converter for the next ones, but only to another that serves.
  obtain ⟨rfl, hverdicts⟩ := hjudges
  induction verdicts generalizing c with
  | nil => exact ⟨c, h, rfl⟩
  | cons v verdicts ih =>
    obtain ⟨hv, hverdicts⟩ := List.forall_mem_cons.1 hverdicts
    obtain ⟨hunit, hunits⟩ := List.forall_mem_cons.1 hunits
    obtain ⟨c', hserves, hjudge⟩ := judge_cons hr h hv (verdicts.map Verdict.unit ++ rest)
    obtain ⟨c'', hserves', hrest⟩ := ih hserves hverdicts hunits
    refine ⟨c'', hserves', ?_⟩
    rw [List.map_cons, List.cons_append, hjudge, if_pos hunit, hrest]
    rfl

/-! ### Counts -/

/-- Counts of names: each name that occurs has one count, of all its occurrences. -/
structure Tallies (names : List String) (counts : List (String × Nat)) : Prop where
  nodup_keys : (counts.map Prod.fst).Nodup
  mem_keys_iff : ∀ name, name ∈ counts.map Prod.fst ↔ name ∈ names
  count_eq : ∀ entry ∈ counts, entry.2 = names.count entry.1
  sum_eq : (counts.map Prod.snd).sum = names.length

theorem sum_countClass (counts : List (String × Nat)) (name : String) :
    ((Failure.countClass counts name).map Prod.snd).sum = (counts.map Prod.snd).sum + 1 := by
  induction counts with
  | nil => rfl
  | cons entry counts ih =>
    rw [Failure.countClass]
    split
    · simp only [List.map_cons, List.sum_cons]
      omega
    · simp only [List.map_cons, List.sum_cons, ih]
      omega

theorem mem_keys_countClass {counts : List (String × Nat)} {name key : String} :
    key ∈ (Failure.countClass counts name).map Prod.fst ↔
      key ∈ counts.map Prod.fst ∨ key = name := by
  induction counts with
  | nil => simp [Failure.countClass]
  | cons entry counts ih =>
    rw [Failure.countClass]
    split
    · next h =>
      simp only [List.map_cons, List.mem_cons, h]
      exact ⟨Or.inl, Or.rec id Or.inl⟩
    · simp only [List.map_cons, List.mem_cons, ih, or_assoc]

theorem nodup_countClass {counts : List (String × Nat)} (h : (counts.map Prod.fst).Nodup)
    (name : String) : ((Failure.countClass counts name).map Prod.fst).Nodup := by
  induction counts with
  | nil => simp [Failure.countClass]
  | cons entry counts ih =>
    rw [List.map_cons, List.nodup_cons] at h
    rw [Failure.countClass]
    split
    · exact List.nodup_cons.2 h
    · next hne =>
      refine List.nodup_cons.2 ⟨fun hmem ↦ ?_, ih h.2⟩
      rcases mem_keys_countClass.1 hmem with hmem | heq
      · exact h.1 hmem
      · exact hne heq

/-- An entry with another name stays; the one with the name counts one more, or is new. -/
theorem mem_countClass {counts : List (String × Nat)} (h : (counts.map Prod.fst).Nodup)
    {name : String} {entry : String × Nat} (hentry : entry ∈ Failure.countClass counts name) :
    entry.1 ≠ name ∧ entry ∈ counts ∨
      ∃ n, entry = (name, n + 1) ∧ ((name, n) ∈ counts ∨ n = 0 ∧ name ∉ counts.map Prod.fst) := by
  induction counts with
  | nil =>
    obtain rfl := List.mem_singleton.1 hentry
    exact Or.inr ⟨0, rfl, Or.inr ⟨rfl, List.not_mem_nil⟩⟩
  | cons first counts ih =>
    obtain ⟨key, n⟩ := first
    obtain ⟨hkey, hnodup⟩ := List.nodup_cons.1 h
    rw [Failure.countClass] at hentry
    split at hentry
    · next heq =>
      subst heq
      rcases List.mem_cons.1 hentry with rfl | hmem
      · exact Or.inr ⟨n, rfl, Or.inl List.mem_cons_self⟩
      · have hmem' : entry.1 ∈ counts.map Prod.fst := List.mem_map_of_mem hmem
        exact Or.inl ⟨fun hname ↦ hkey (hname ▸ hmem'), List.mem_cons_of_mem _ hmem⟩
    · next hne =>
      rcases List.mem_cons.1 hentry with rfl | hmem
      · exact Or.inl ⟨hne, List.mem_cons_self⟩
      · rcases ih hnodup hmem with ⟨hname, hold⟩ | ⟨n', rfl, hold | ⟨rfl, hnew⟩⟩
        · exact Or.inl ⟨hname, List.mem_cons_of_mem _ hold⟩
        · exact Or.inr ⟨n', rfl, Or.inl (List.mem_cons_of_mem _ hold)⟩
        · exact Or.inr ⟨0, rfl, Or.inr ⟨rfl, fun hmem ↦
            (List.mem_cons.1 hmem).elim (fun heq ↦ hne heq.symm) hnew⟩⟩

theorem Tallies.countClass {names : List String} {counts : List (String × Nat)}
    (h : Tallies names counts) (name : String) :
    Tallies (names ++ [name]) (Failure.countClass counts name) where
  nodup_keys := nodup_countClass h.nodup_keys name
  mem_keys_iff key := by
    rw [mem_keys_countClass, h.mem_keys_iff, List.mem_append, List.mem_singleton]
  count_eq entry hentry := by
    rw [List.count_append]
    rcases mem_countClass h.nodup_keys hentry with ⟨hname, hmem⟩ | ⟨n, rfl, hmem | ⟨rfl, hnew⟩⟩
    · rw [h.count_eq entry hmem, List.count_singleton, if_neg (by simpa using Ne.symm hname)]
      rfl
    · rw [← h.count_eq _ hmem, List.count_singleton_self]
    · rw [List.count_eq_zero.2 (fun hmem ↦ hnew ((h.mem_keys_iff _).2 hmem)),
        List.count_singleton_self]
  sum_eq := by
    rw [sum_countClass, h.sum_eq, List.length_append, List.length_singleton]

theorem Tallies.foldl {names : List String} {counts : List (String × Nat)}
    (h : Tallies names counts) (more : List String) :
    Tallies (names ++ more) (more.foldl Failure.countClass counts) := by
  induction more generalizing names counts with
  | nil => rwa [List.append_nil]
  | cons name more ih =>
    have htallies := ih (h.countClass name)
    rwa [List.append_assoc] at htallies

theorem tallies_classCounts (failures : List Failure) :
    Tallies (failures.map Failure.className) (Failure.classCounts failures) := by
  have hnone : Tallies [] [] := ⟨List.nodup_nil, fun _ ↦ Iff.rfl, List.forall_mem_nil _, rfl⟩
  exact hnone.foldl (failures.map Failure.className)

theorem Tallies.perm {names : List String} {counts counts' : List (String × Nat)}
    (h : Tallies names counts) (hperm : counts'.Perm counts) : Tallies names counts' where
  nodup_keys := (hperm.map Prod.fst).nodup_iff.2 h.nodup_keys
  mem_keys_iff name := (hperm.map Prod.fst).mem_iff.trans (h.mem_keys_iff name)
  count_eq entry hentry := h.count_eq entry (hperm.mem_iff.1 hentry)
  sum_eq := (hperm.map Prod.snd).sum_nat.trans h.sum_eq

/-! ### The whole check -/

/-- The line under all others, with the counts of the classes. -/
def summaryLine (units invalid : Nat) (counts : List (String × Nat)) : RawText :=
  toString invalid ++ " of " ++ toString units ++ " units invalid: " ++
    ", ".intercalate (counts.map fun (name, n) ↦ name ++ "=" ++ toString n)

theorem exists_summaryLines_eq (units : Nat) {causes : List UnitError} (h : causes ≠ []) :
    ∃ counts, Tallies (causes.map UnitError.className) counts ∧
      summaryLines units causes = [summaryLine units causes.length counts] := by
  have htallies := tallies_classCounts (causes.map Failure.unit)
  rw [List.map_map] at htallies
  refine ⟨_, htallies.perm (List.mergeSort_perm _ fun a b ↦ decide (a.1 ≤ b.1)), ?_⟩
  rw [summaryLines, if_neg (by simpa using h)]
  rfl

/-- The invalid units are those with a cause. -/
theorem length_causes (verdicts : List Verdict) :
    (causes verdicts).length = verdicts.countP fun v ↦ v.cause?.isSome :=
  List.length_filterMap_eq_countP

/-- The lines of verdicts as they are written. -/
def verdictLines (verdicts : List Verdict) : List RawText :=
  verdicts.map fun v ↦ Text.dropSequences v.line

section

variable {i : Invocation} {host : Host} {moment : LogTree.Moment} {settings : Settings}
  {logs : LogTree} {units : List RawText} {verdicts : List Verdict}

section

variable (hsettings : i.settings host = .ok settings)
  (hlog : Invocation.openLog settings host moment = (.ok (), logs))
  (hregistry : settings.buildRegistry none = .ok r)
  (hrequest : i.request = .run (.check units noParse))

include hsettings hlog hregistry hrequest

/-- What a call leaves that checks proper texts: the lines of the units, the summary, and the exit
code. -/
theorem run_check (hunits : ∀ unit ∈ units, unit.isWritable = true)
    (hjudges : Judges r noParse units verdicts) :
    let o := i.run host moment
    o.ending = .exit (if (causes verdicts).isEmpty then 0 else 1) ∧
      o.out = verdictLines verdicts ++
        (summaryLines units.length (causes verdicts)).map Text.dropSequences := by
  intro o
  have hr := Settings.wellBuilt_of_buildRegistry hregistry
  have hserves := serves_self hr noParse settings.preferences
  obtain ⟨c', -, hjudge⟩ := judge_append hr hserves hjudges hunits []
  rw [List.append_nil] at hjudge
  have hperformed : ((Command.check units noParse).perform settings
      { registry := r, preferences := settings.preferences }).1 =
        { lines := verdicts.map Verdict.line ++ summaryLines units.length (causes verdicts)
          answer := .ok (if (causes verdicts).isEmpty then 0 else 1) } := by
    simp only [Command.perform, performCheck, hjudge, judge, Prod.map, List.append_nil, id]
  obtain ⟨hout, hending⟩ :=
    run_of_isRecordable hsettings hlog hregistry hrequest (Or.inr hunits)
  rw [hperformed] at hout hending
  refine ⟨hending, hout.trans ?_⟩
  show (verdicts.map Verdict.line ++ _).map Text.dropSequences = _
  rw [List.map_append, List.map_map]
  rfl

/-- A call that checks something that is no proper text ends there, after the lines before it. -/
theorem run_check_unwritable {before after : List RawText} {unit : RawText}
    (hunits : units = before ++ unit :: after)
    (hbefore : ∀ other ∈ before, other.isWritable = true) (hunit : unit.isWritable = false)
    (hjudges : Judges r noParse units verdicts) :
    let o := i.run host moment
    o.ending = .escape .unwritableText ∧ o.out = verdictLines (verdicts.take before.length) := by
  intro o
  obtain ⟨hverdicts, hanswers⟩ := hjudges
  have hr := Settings.wellBuilt_of_buildRegistry hregistry
  have hserves := serves_self hr noParse settings.preferences
  obtain ⟨first, last, rfl, hfirst, hlast⟩ := List.map_eq_append_iff.1 (hverdicts.trans hunits)
  obtain ⟨v, last, rfl, rfl, -⟩ := List.map_eq_cons_iff.1 hlast
  obtain ⟨hfirsts, hlasts⟩ := List.forall_mem_append.1 hanswers
  obtain ⟨c', hserves', hjudge⟩ := judge_append hr hserves ⟨hfirst, hfirsts⟩ hbefore
    (v.unit :: after)
  obtain ⟨c'', -, hcons⟩ := judge_cons hr hserves' (List.forall_mem_cons.1 hlasts).1 after
  rw [hcons, if_neg (by simp [hunit])] at hjudge
  have hperformed : ((Command.check units noParse).perform settings
      { registry := r, preferences := settings.preferences }).1 =
        { lines := first.map Verdict.line, answer := .error .unwritableText } := by
    simp only [Command.perform, performCheck, hunits, hjudge, Prod.map, List.append_nil, id]
  have htake : (first ++ v :: last).take before.length = first := by
    rw [← hfirst, List.length_map, List.take_left]
  obtain ⟨hout, hending⟩ := run_like_report hsettings hlog (Settings.buildConverter_eq hregistry)
    hrequest
  rw [hperformed] at hout hending
  refine ⟨hending.elim id fun hfails ↦ hfails.1.ending_eq, hout.trans ?_⟩
  show (first.map Verdict.line).map Text.dropSequences = _
  rw [htake, List.map_map]
  rfl

end

/-- **A check judges each unit on its own.** There is a line for each unit, in order, with what a
fresh converter over the registry of the call makes of the unit. If all units are valid these are
all lines and the exit code is zero; otherwise a summary follows, whose counts tally the classes of
the failures, and the exit code is one. That is so if all units are proper texts; the first that is
none ends the check, after the lines of the units before it. -/
theorem check_outcome
    (hsettings : i.settings host = .ok settings)
    (hlog : Invocation.openLog settings host moment = (.ok (), logs))
    (hregistry : settings.buildRegistry none = .ok r)
    (hrequest : i.request = .run (.check units noParse)) :
    let o := i.run host moment
    ∃ verdicts : List Verdict,
      verdicts.map Verdict.unit = units ∧
      (∀ v ∈ verdicts, ∀ preferences : Preferences,
        (({ registry := r, preferences } : Converter).toInternal (checkRequest noParse)
          (.ofDouble 1) (some v.unit)).1 = v.answer.mapError Failure.unit) ∧
      (causes verdicts).length = verdicts.countP (fun v ↦ v.cause?.isSome) ∧
      ((∀ unit ∈ units, unit.isWritable = true) →
        causes verdicts = [] ∧ o.ending = .exit 0 ∧ o.out = verdictLines verdicts ∨
        causes verdicts ≠ [] ∧ o.ending = .exit 1 ∧
          ∃ counts, Tallies ((causes verdicts).map UnitError.className) counts ∧
            o.out = verdictLines verdicts ++ [Text.dropSequences
              (summaryLine units.length (causes verdicts).length counts)]) ∧
      ∀ before unit after, units = before ++ unit :: after →
        (∀ other ∈ before, other.isWritable = true) → unit.isWritable = false →
          o.ending = .escape .unwritableText ∧
            o.out = verdictLines (verdicts.take before.length) := by
  intro o
  have hr := Settings.wellBuilt_of_buildRegistry hregistry
  obtain ⟨verdicts, hjudges⟩ := exists_judges hr noParse units
  refine ⟨verdicts, hjudges.units_eq, fun v hv preferences ↦ ?_, length_causes verdicts,
    fun hunits ↦ ?_, fun before unit after hsplit hbefore hunit ↦
      run_check_unwritable hsettings hlog hregistry hrequest hsplit hbefore hunit hjudges⟩
  · rw [← hjudges.answer_eq v hv]
    exact toInternal_fst hr.valid noParse v.unit
  · obtain ⟨hending, hout⟩ := run_check hsettings hlog hregistry hrequest hunits hjudges
    by_cases hcauses : causes verdicts = []
    · refine Or.inl ⟨hcauses, hending.trans (by rw [hcauses]; rfl), hout.trans ?_⟩
      rw [hcauses]
      exact List.append_nil _
    · obtain ⟨counts, htallies, hsummary⟩ := exists_summaryLines_eq units.length hcauses
      refine Or.inr ⟨hcauses, hending.trans (by rw [if_neg (by simpa using hcauses)]), counts,
        htallies, hout.trans ?_⟩
      rw [hsummary]
      rfl

end

/-- A call that checks units. -/
def checkCall (units : List RawText) : Invocation where
  config := none
  logFile := none
  verbose := false
  command := .check
  request := .run (.check units false)

/-- Nothing is there. -/
def emptyHost : Host where
  disk _ := .missing
  wording := id

/-- A nonlinear unit, a compound one and one that is none. -/
theorem check_outcome_sample :
    let units : List RawText := ["degC", "m/s", "furlong"].map .ofString
    let o := (checkCall units).run emptyHost { stamp := ⟨"", "", ""⟩ }
    (o.exitCode = 1 ∧
      o.out = ["degC: ok (274.15)",
        "m/s: ok (1.0)",
        "furlong: invalid (Cannot resolve unit 'furlong' " ++
          "(Details: from_unit=furlong, substring='furlong'))",
        "1 of 3 units invalid: UnresolvableUnitError=1"].map .ofString) ∧
    ∃ verdicts : List Verdict, verdicts.map Verdict.unit = units ∧
      (∀ v ∈ verdicts, (({ registry := .builtIn } : Converter).toInternal (checkRequest false)
        (.ofDouble 1) (some v.unit)).1 = v.answer.mapError Failure.unit) ∧
      ∃ counts, Tallies ((causes verdicts).map UnitError.className) counts ∧
        o.out = verdictLines verdicts ++ [Text.dropSequences
          (summaryLine 3 (causes verdicts).length counts)] := by
  intro units o
  let moment : LogTree.Moment := { stamp := ⟨"", "", ""⟩ }
  have hsettings : (checkCall units).settings emptyHost = .ok {} := rfl
  have hlog : Invocation.openLog {} emptyHost moment = (.ok (), {}) := rfl
  have hregistry : ({} : Settings).buildRegistry none = .ok .builtIn := rfl
  obtain ⟨verdicts, hunits, hanswers, -, hproper, -⟩ :=
    check_outcome hsettings hlog hregistry rfl
  have hexit : o.exitCode = 1 := by decide +kernel
  rcases hproper (by decide) with ⟨-, hvalid, -⟩ | ⟨-, -, hsummary⟩
  · exact absurd (hexit.symm.trans (congrArg Ending.exitCode hvalid)) Nat.one_ne_zero
  · exact ⟨⟨hexit, by decide +kernel⟩, verdicts, hunits, fun v hv ↦ hanswers v hv {}, hsummary⟩

/-- A unit that is no text ends the check, and there is no line for any other one. -/
theorem undecodable_unit_unjudged :
    let o := (checkCall [⟨[.half 0xdcff]⟩, "m"]).run emptyHost { stamp := ⟨"", "", ""⟩ }
    o.ending = .escape .unwritableText ∧ o.out = [] ∧ o.err = [] := by
  decide +kernel

end CommandLine

end Metrology
