import Mathlib.Data.List.Basic
import Metrology.Expression.Parts

/-!
# The depth of parentheses

The scans of `Metrology.Parts` count open parentheses. `Parts.depthAfter` is that count alone, as a
partial fold: the depth after a text, undefined once a parenthesis closes nothing. Being a fold, it
splits at every append (`depthAfter_append`), which is what the recursive scans themselves do not.

Three scans are characterised by it:

* `balanced_iff` — a text is balanced when its depth returns to zero;
* `inside?_eq_some_iff` — a text is one group exactly when it is a balanced text in parentheses;
* `sides?_append_cons` and `sides?_eq_none` — the scan for a sign splits at the first occurrence
  outside all parentheses, and fails only when there is none.

The occurrences that do not count are those inside parentheses: `Parts.Free` says that a text has
no other ones, and `free_append` and `free_cons` take it apart.
-/

namespace Metrology.Parts

/-! ### Counting -/

/-- The depth after one more character. -/
def nextDepth (depth : Nat) (c : CodePoint) : Option Nat :=
  if c = .char '(' then some (depth + 1)
  else if c = .char ')' then (if depth = 0 then none else some (depth - 1))
  else some depth

/-- The depth after a text, from a depth before it. -/
def depthAfter (depth : Nat) (cs : List CodePoint) : Option Nat := cs.foldlM nextDepth depth

@[simp] theorem depthAfter_nil (depth : Nat) : depthAfter depth [] = some depth := rfl

theorem depthAfter_cons (depth : Nat) (c : CodePoint) (cs : List CodePoint) :
    depthAfter depth (c :: cs) = (nextDepth depth c).bind (depthAfter · cs) := rfl

theorem depthAfter_append (depth : Nat) (l r : List CodePoint) :
    depthAfter depth (l ++ r) = (depthAfter depth l).bind (depthAfter · r) := by
  simp [depthAfter, List.foldlM_append]

@[simp] theorem nextDepth_open (depth : Nat) : nextDepth depth (.char '(') = some (depth + 1) := rfl

@[simp] theorem nextDepth_close_zero : nextDepth 0 (.char ')') = none := rfl

@[simp] theorem nextDepth_close_succ (depth : Nat) :
    nextDepth (depth + 1) (.char ')') = some depth := rfl

theorem nextDepth_of_ne {c : CodePoint} (hopen : c ≠ .char '(') (hclose : c ≠ .char ')')
    (depth : Nat) :
    nextDepth depth c = some depth := by
  simp [nextDepth, hopen, hclose]

/-- A sign does not change the depth. -/
@[simp] theorem nextDepth_sign (operator : Operator) (depth : Nat) :
    nextDepth depth operator.sign = some depth := by
  cases operator <;> rfl

/-- Where the depth is defined it moves as in the scan for a sign, which never stops. -/
theorem eq_of_nextDepth_eq_some {depth next : Nat} {c : CodePoint}
    (h : nextDepth depth c = some next) :
    (if c = .char '(' then depth + 1 else if c = .char ')' then depth - 1 else depth) = next := by
  unfold nextDepth at h
  grind

/-- A text read below further open parentheses leaves those open. -/
theorem depthAfter_add {depth after : Nat} {cs : List CodePoint}
    (h : depthAfter depth cs = some after)
    (k : Nat) : depthAfter (depth + k) cs = some (after + k) := by
  induction cs generalizing depth with
  | nil =>
    rw [depthAfter_nil, Option.some_inj] at h
    rw [depthAfter_nil, h]
  | cons c cs ih =>
    rw [depthAfter_cons, Option.bind_eq_some_iff] at h
    obtain ⟨next, hnext, hrest⟩ := h
    have hshift : nextDepth (depth + k) c = some (next + k) := by
      unfold nextDepth at hnext ⊢
      grind
    rw [depthAfter_cons, hshift]
    exact ih hrest

/-- A text whose depth is defined has one at each of its beginnings. -/
theorem exists_depthAfter_of_append {depth after : Nat} {l r : List CodePoint}
    (h : depthAfter depth (l ++ r) = some after) :
    ∃ middle, depthAfter depth l = some middle ∧ depthAfter middle r = some after := by
  rwa [depthAfter_append, Option.bind_eq_some_iff] at h

/-! ### Balance -/

theorem balancedFrom_iff {depth : Nat} {cs : List CodePoint} :
    balancedFrom depth cs = true ↔ depthAfter depth cs = some 0 := by
  fun_induction balancedFrom depth cs with
  | case1 depth => simp
  | case2 depth rest ih => rw [ih, depthAfter_cons, nextDepth_open]; rfl
  | case3 rest => simp [depthAfter_cons]
  | case4 depth rest ih => rw [ih, depthAfter_cons, nextDepth_close_succ]; rfl
  | case5 depth c rest hopen hzero hsucc ih =>
    have hclose : c ≠ .char ')' := by
      rintro rfl
      cases depth with
      | zero => exact hzero rfl rfl
      | succ depth => exact hsucc depth rfl rfl
    rw [ih, depthAfter_cons, nextDepth_of_ne (fun h ↦ hopen h) hclose]
    rfl

theorem balanced_iff {cs : List CodePoint} : balanced cs = true ↔ depthAfter 0 cs = some 0 :=
  balancedFrom_iff

/-- A group is balanced when its inside is. -/
theorem depthAfter_group {inside : List CodePoint} (h : depthAfter 0 inside = some 0) :
    depthAfter 0 (.char '(' :: inside ++ [.char ')']) = some 0 := by
  rw [List.cons_append, depthAfter_cons, nextDepth_open, Option.bind_some, depthAfter_append,
    depthAfter_add h 1]
  rfl

/-! ### Groups -/

/-- What the scan for the end of a group finds: a text that returns to depth zero, then the
parenthesis that closes the group. -/
theorem eq_append_of_groupBody? {depth : Nat} {cs body : List CodePoint}
    (h : groupBody? depth cs = some body) :
    cs = body ++ [.char ')'] ∧ depthAfter depth body = some 0 := by
  fun_induction groupBody? depth cs generalizing body with
  | case1 depth => simp at h
  | case2 =>
    obtain rfl : [] = body := by simpa using h
    exact ⟨rfl, rfl⟩
  | case3 c rest => simp at h
  | case4 depth rest ih =>
    obtain ⟨inner, hinner, rfl⟩ := Option.map_eq_some_iff.1 h
    obtain ⟨rfl, hdepth⟩ := ih hinner
    exact ⟨rfl, by rw [depthAfter_cons, nextDepth_close_succ]; exact hdepth⟩
  | case5 depth c rest hlast hmore hsucc ih =>
    obtain ⟨inner, hinner, rfl⟩ := Option.map_eq_some_iff.1 h
    obtain ⟨rfl, hdepth⟩ := ih hinner
    -- the earlier cases have taken every closing parenthesis
    have hclose : c ≠ .char ')' := by
      rintro rfl
      cases depth with
      | zero =>
        cases hinner' : inner ++ [.char ')'] with
        | nil => simp at hinner'
        | cons d rest => exact hmore d rest rfl rfl hinner'
      | succ depth => exact hsucc depth rfl rfl
    have hnext : nextDepth depth c = some (if c = .char '(' then depth + 1 else depth) := by
      unfold nextDepth
      grind
    exact ⟨rfl, by rw [depthAfter_cons, hnext]; exact hdepth⟩

theorem groupBody?_cons_of_next {depth next : Nat} {c : CodePoint} {cs : List CodePoint}
    (hnext : nextDepth depth c = some next) :
    groupBody? depth (c :: cs) = (groupBody? next cs).map (c :: ·) := by
  by_cases hclose : c = .char ')'
  · subst hclose
    cases depth with
    | zero => simp at hnext
    | succ depth =>
      obtain rfl : depth = next := by simpa using hnext
      rw [groupBody?]
  · have hdepth : (if c = .char '(' then depth + 1 else depth) = next := by
      rw [← eq_of_nextDepth_eq_some hnext, if_neg hclose]
    rw [groupBody?, hdepth] <;> simp [hclose]

theorem groupBody?_append {depth : Nat} {body : List CodePoint}
    (h : depthAfter depth body = some 0) :
    groupBody? depth (body ++ [.char ')']) = some body := by
  induction body generalizing depth with
  | nil =>
    obtain rfl : depth = 0 := by simpa using h
    rfl
  | cons c body ih =>
    obtain ⟨next, hnext, hrest⟩ := Option.bind_eq_some_iff.1 h
    rw [List.cons_append, groupBody?_cons_of_next hnext, ih hrest]
    rfl

/-- A text is one group exactly when it is a balanced text in parentheses. -/
theorem inside?_eq_some_iff {cs inside : List CodePoint} :
    inside? cs = some inside ↔
      cs = .char '(' :: inside ++ [.char ')'] ∧ depthAfter 0 inside = some 0 := by
  constructor
  · intro h
    unfold inside? at h
    split at h
    · obtain ⟨rfl, hdepth⟩ := eq_append_of_groupBody? h
      exact ⟨rfl, hdepth⟩
    · exact absurd h (by simp)
  · rintro ⟨rfl, h⟩
    exact groupBody?_append h

theorem inside?_eq_none_of_not_balanced {cs : List CodePoint} (h : balanced cs = false) :
    inside? cs = none := by
  refine Option.eq_none_iff_forall_ne_some.2 fun inside hinside ↦ ?_
  obtain ⟨rfl, hdepth⟩ := inside?_eq_some_iff.1 hinside
  rw [balanced_iff.2 (depthAfter_group hdepth)] at h
  exact absurd h (by simp)

/-! ### Signs outside parentheses -/

/-- A sign does not occur outside parentheses in a text that begins at a depth. -/
def Free (sign : CodePoint) (depth : Nat) (cs : List CodePoint) : Prop :=
  ∀ l r, cs = l ++ sign :: r → depthAfter depth l ≠ some 0

theorem free_nil (sign : CodePoint) (depth : Nat) : Free sign depth [] := by
  intro l r h
  simp at h

theorem free_cons {sign c : CodePoint} {depth : Nat} {cs : List CodePoint} :
    Free sign depth (c :: cs) ↔
      (depth = 0 → c ≠ sign) ∧ ∀ next, nextDepth depth c = some next → Free sign next cs := by
  constructor
  · intro h
    refine ⟨?_, ?_⟩
    · -- the sign at the front is an occurrence after the empty text
      rintro rfl rfl
      exact h [] cs rfl rfl
    · intro next hnext l r hcs
      have hfree := h (c :: l) r (by rw [hcs]; rfl)
      rwa [depthAfter_cons, hnext, Option.bind_some] at hfree
  · rintro ⟨hhead, htail⟩ l r hcs
    cases l with
    | nil =>
      rw [List.nil_append, List.cons.injEq] at hcs
      rw [depthAfter_nil]
      intro hdepth
      exact hhead (Option.some_inj.1 hdepth) hcs.1
    | cons b l =>
      rw [List.cons_append, List.cons.injEq] at hcs
      obtain ⟨rfl, rfl⟩ := hcs
      rw [depthAfter_cons]
      intro hdepth
      obtain ⟨next, hnext, hl⟩ := Option.bind_eq_some_iff.1 hdepth
      exact htail next hnext l r rfl hl

/-- An appended text goes on at the depth that the first one leaves. -/
theorem free_append {sign : CodePoint} {depth middle : Nat} {l r : List CodePoint}
    (h : depthAfter depth l = some middle) :
    Free sign depth (l ++ r) ↔ Free sign depth l ∧ Free sign middle r := by
  induction l generalizing depth with
  | nil =>
    obtain rfl : depth = middle := by simpa using h
    simp [free_nil]
  | cons c l ih =>
    obtain ⟨next, hnext, hrest⟩ := Option.bind_eq_some_iff.1 h
    simp only [List.cons_append, free_cons, hnext, Option.some_inj, forall_eq', ih hrest]
    tauto

/-- Below an open parenthesis nothing counts, as long as that one is not closed. -/
theorem free_of_depthAfter {sign : CodePoint} {after : Nat} {cs : List CodePoint}
    (h : depthAfter 0 cs = some after) : Free sign 1 cs := by
  rintro l r rfl hdepth
  -- from depth 0 what stands before the sign has a depth, so from depth 1 it has one more, not 0
  obtain ⟨middle, hl, -⟩ := exists_depthAfter_of_append h
  have hshift := depthAfter_add hl 1
  rw [hdepth] at hshift
  simp at hshift

/-- No operator occurs outside the parentheses of a group. -/
theorem free_group (operator : Operator) {inside : List CodePoint}
    (h : depthAfter 0 inside = some 0) :
    Free operator.sign 0 (.char '(' :: inside ++ [.char ')']) := by
  have hinside : depthAfter 1 inside = some 1 := depthAfter_add h 1
  rw [List.cons_append, free_cons]
  refine ⟨fun _ ↦ by cases operator <;> decide, fun next hnext ↦ ?_⟩
  obtain rfl : 1 = next := by simpa using hnext
  rw [free_append hinside, free_cons]
  exact ⟨free_of_depthAfter h, by simp, fun next _ ↦ free_nil _ _⟩

/-! ### The scan for a sign -/

theorem sides?_cons_of_next {sign c : CodePoint} {depth next : Nat} {cs : List CodePoint}
    (hne : ¬(depth = 0 ∧ c = sign)) (hnext : nextDepth depth c = some next) :
    sides? sign depth (c :: cs) =
      (sides? sign next cs).map fun (left, right) ↦ (c :: left, right) := by
  rw [sides?, if_neg hne, eq_of_nextDepth_eq_some hnext]

/-- The scan splits at the first occurrence outside parentheses. -/
theorem sides?_append_cons {sign : CodePoint} {depth : Nat} {l r : List CodePoint}
    (h : depthAfter depth l = some 0) (hfree : Free sign depth l) :
    sides? sign depth (l ++ sign :: r) = some (l, r) := by
  induction l generalizing depth with
  | nil =>
    obtain rfl : depth = 0 := by simpa using h
    simp [sides?]
  | cons c l ih =>
    obtain ⟨next, hnext, hrest⟩ := Option.bind_eq_some_iff.1 h
    obtain ⟨hhead, htail⟩ := free_cons.1 hfree
    rw [List.cons_append, sides?_cons_of_next (fun hc ↦ hhead hc.1 hc.2) hnext,
      ih hrest (htail next hnext)]
    rfl

theorem sides?_eq_none {sign : CodePoint} {depth after : Nat} {cs : List CodePoint}
    (h : depthAfter depth cs = some after) (hfree : Free sign depth cs) :
    sides? sign depth cs = none := by
  induction cs generalizing depth with
  | nil => rfl
  | cons c cs ih =>
    obtain ⟨next, hnext, hrest⟩ := Option.bind_eq_some_iff.1 h
    obtain ⟨hhead, htail⟩ := free_cons.1 hfree
    rw [sides?_cons_of_next (fun hc ↦ hhead hc.1 hc.2) hnext, ih hrest (htail next hnext)]
    rfl

/-- A sign that occurs outside parentheses has a first such occurrence. -/
theorem exists_first_of_not_free {sign : CodePoint} {depth after : Nat} {cs : List CodePoint}
    (h : depthAfter depth cs = some after) (hfree : ¬Free sign depth cs) :
    ∃ l r, cs = l ++ sign :: r ∧ depthAfter depth l = some 0 ∧ Free sign depth l := by
  induction cs generalizing depth with
  | nil => exact absurd (free_nil sign depth) hfree
  | cons c cs ih =>
    obtain ⟨next, hnext, hrest⟩ := Option.bind_eq_some_iff.1 h
    by_cases hhead : depth = 0 ∧ c = sign
    · obtain ⟨rfl, rfl⟩ := hhead
      exact ⟨[], cs, rfl, rfl, free_nil _ _⟩
    · -- otherwise it is in the rest, and the first one there is the first one of all
      have htail : ¬Free sign next cs := by
        intro htail
        refine hfree (free_cons.2 ⟨fun hd hc ↦ hhead ⟨hd, hc⟩, fun next' hnext' ↦ ?_⟩)
        rw [hnext, Option.some_inj] at hnext'
        exact hnext' ▸ htail
      obtain ⟨l, r, rfl, hl, hlfree⟩ := ih hrest htail
      refine ⟨c :: l, r, rfl, by rw [depthAfter_cons, hnext]; exact hl, ?_⟩
      refine free_cons.2 ⟨fun hd hc ↦ hhead ⟨hd, hc⟩, fun next' hnext' ↦ ?_⟩
      rw [hnext, Option.some_inj] at hnext'
      exact hnext' ▸ hlfree

end Metrology.Parts
