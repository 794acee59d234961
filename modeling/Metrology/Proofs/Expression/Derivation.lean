import Metrology.Proofs.Expression.Depth

/-!
# Derivations of unit expressions

The grammar of unit expressions, in which the level of a phrase is the list of operators that may
still split it, the loosest first:

```
phrase (op :: ops) := phrase ops | phrase ops  op  phrase (op :: ops)
phrase []          := '(' phrase [product, quotient, power] ')' | leaf
```

So a product is a quotient, or a quotient, a space and a product; and so on down to the groups and
the leaves. A leaf is any balanced text, the empty one included, that has no operator outside
parentheses and is not one group.

Nothing here evaluates anything: a `Derivation` is a tree, `Derivation.text` is what it derives, and
the main statements are about the two alone.

* `balanced_text` and `exists_derivation_of_free` — the derived texts are the balanced ones.
* `eq_of_text_eq` — a text has one derivation at most.

The second rests on `free_text`: a phrase has no operator outside parentheses that is looser than
its level, so that in a split phrase the operator that splits it is the first one of its kind.
-/

namespace Metrology

open Parts

/-- A balanced text that is neither split by an operator nor one group. -/
structure IsLeaf (text : List CodePoint) : Prop where
  balanced : balanced text = true
  /-- What stands before an operator has an open parenthesis. -/
  no_operator : ∀ (operator : Operator) (left right : List CodePoint),
    text = left ++ operator.sign :: right → Parts.balanced left = false
  /-- What stands between the outermost parentheses is not balanced. -/
  not_group : ∀ inside : List CodePoint,
    text = .char '(' :: inside ++ [.char ')'] → Parts.balanced inside = false

theorem Operator.sign_injective : Function.Injective Operator.sign := by
  intro a b h
  cases a <;> cases b <;> first | rfl | exact absurd h (by decide)

/-- In a leaf no operator stands outside parentheses. -/
theorem IsLeaf.free {text : List CodePoint} (h : IsLeaf text) (operator : Operator) :
    Free operator.sign 0 text := by
  intro l r htext hdepth
  have hbalanced := h.no_operator operator l r htext
  rw [balanced_iff.2 hdepth] at hbalanced
  exact absurd hbalanced (by simp)

/-- A derivation of a phrase that only some operators may split. -/
inductive Derivation : List Operator → Type where
  /-- The loosest operator does not split the phrase. -/
  | tighter {operator : Operator} {operators : List Operator} (phrase : Derivation operators) :
      Derivation (operator :: operators)
  /-- The loosest operator splits the phrase, and may split what follows again. -/
  | split {operator : Operator} {operators : List Operator} (left : Derivation operators)
      (right : Derivation (operator :: operators)) : Derivation (operator :: operators)
  | group (inside : Derivation Operator.byLooseness) : Derivation []
  | leaf (text : List CodePoint) (isLeaf : IsLeaf text) : Derivation []

namespace Derivation

variable {operators : List Operator}

/-- The text that is derived. -/
def text : {operators : List Operator} → Derivation operators → List CodePoint
  | _, tighter phrase => phrase.text
  | operator :: _, split left right => left.text ++ operator.sign :: right.text
  | _, group inside => .char '(' :: inside.text ++ [.char ')']
  | _, leaf text _ => text

/-! ### Derived texts are balanced and have no looser operators -/

theorem depthAfter_text (d : Derivation operators) : depthAfter 0 d.text = some 0 := by
  induction d with
  | tighter phrase ih => exact ih
  | @split operator operators left right ihleft ihright =>
    rw [text, depthAfter_append, ihleft, Option.bind_some, depthAfter_cons, nextDepth_sign]
    exact ihright
  | group inside ih => exact depthAfter_group ih
  | leaf text isLeaf => exact balanced_iff.1 isLeaf.balanced

/-- A derived text is balanced. -/
theorem balanced_text (d : Derivation operators) : balanced d.text = true :=
  balanced_iff.2 d.depthAfter_text

/-- An operator that may not split a phrase does not occur in it outside parentheses. -/
theorem free_text (d : Derivation operators) {operator : Operator} (h : operator ∉ operators) :
    Free operator.sign 0 d.text := by
  induction d with
  | tighter phrase ih => exact ih fun hmem ↦ h (List.mem_cons_of_mem _ hmem)
  | @split loosest operators left right ihleft ihright =>
    rw [text, free_append left.depthAfter_text, free_cons]
    refine ⟨ihleft fun hmem ↦ h (List.mem_cons_of_mem _ hmem), fun _ hsign ↦ ?_,
      fun next hnext ↦ ?_⟩
    · exact h (Operator.sign_injective hsign ▸ List.mem_cons_self)
    · rw [nextDepth_sign, Option.some_inj] at hnext
      exact hnext ▸ ihright h
  | group inside => exact free_group operator inside.depthAfter_text
  | leaf text isLeaf => exact isLeaf.free operator

/-! ### What the scans find in a derived text -/

/-- The loosest operator is not found in a tighter phrase. -/
theorem sides?_text_eq_none (d : Derivation operators) {operator : Operator}
    (h : operator ∉ operators) : sides? operator.sign 0 d.text = none :=
  sides?_eq_none d.depthAfter_text (d.free_text h)

/-- In a split phrase it is found where the derivation splits it. -/
theorem sides?_text_split {operator : Operator} (h : operator ∉ operators)
    (left : Derivation operators) (right : Derivation (operator :: operators)) :
    sides? operator.sign 0 (split left right).text = some (left.text, right.text) :=
  sides?_append_cons left.depthAfter_text (left.free_text h)

theorem inside?_text_group (inside : Derivation Operator.byLooseness) :
    inside? (group inside).text = some inside.text :=
  inside?_eq_some_iff.2 ⟨rfl, inside.depthAfter_text⟩

theorem inside?_leaf {text : List CodePoint} (h : IsLeaf text) : inside? text = none := by
  refine Option.eq_none_iff_forall_ne_some.2 fun inside hinside ↦ ?_
  obtain ⟨htext, hdepth⟩ := inside?_eq_some_iff.1 hinside
  have hbalanced := h.not_group inside htext
  rw [balanced_iff.2 hdepth] at hbalanced
  exact absurd hbalanced (by simp)

/-- A phrase that an operator splits is not one group: in a group all operators are inside. -/
theorem inside?_text_split {operator : Operator} (left : Derivation operators)
    (right : Derivation (operator :: operators)) : inside? (split left right).text = none := by
  refine Option.eq_none_iff_forall_ne_some.2 fun inside hinside ↦ ?_
  obtain ⟨htext, hdepth⟩ := inside?_eq_some_iff.1 hinside
  exact free_group operator hdepth left.text right.text htext.symm left.depthAfter_text

/-! ### A text has one derivation -/

/-- At each level a text has at most one derivation. -/
theorem eq_of_text_eq (hnodup : operators.Nodup) (d d' : Derivation operators)
    (h : d.text = d'.text) : d = d' := by
  induction d with
  | @tighter operator operators phrase ih =>
    obtain ⟨hnotMem, hnodup⟩ := List.nodup_cons.1 hnodup
    -- the scan for the operator tells a split phrase from a tighter one, and finds both sides
    cases d' with
    | tighter phrase' => rw [ih hnodup phrase' h]
    | split left right =>
      have hnone := phrase.sides?_text_eq_none hnotMem
      rw [show phrase.text = (split left right).text from h,
        sides?_text_split hnotMem left right] at hnone
      exact absurd hnone (by simp)
  | @split operator operators left right ihleft ihright =>
    obtain ⟨hnotMem, hnodup'⟩ := List.nodup_cons.1 hnodup
    have hsides := sides?_text_split hnotMem left right
    rw [h] at hsides
    cases d' with
    | tighter phrase' =>
      rw [show (tighter phrase').text = phrase'.text from rfl,
        phrase'.sides?_text_eq_none hnotMem] at hsides
      exact absurd hsides (by simp)
    | split left' right' =>
      rw [sides?_text_split hnotMem, Option.some_inj, Prod.mk.injEq] at hsides
      rw [ihleft hnodup' left' hsides.1.symm, ihright hnodup right' hsides.2.symm]
  | group inside ih =>
    -- below all operators the scan for a group does the same
    have hinside := inside?_text_group inside
    rw [h] at hinside
    cases d' with
    | group inside' =>
      rw [inside?_text_group, Option.some_inj] at hinside
      rw [ih (by decide) inside' hinside.symm]
    | leaf text isLeaf =>
      rw [show (leaf text isLeaf).text = text from rfl, inside?_leaf isLeaf] at hinside
      exact absurd hinside (by simp)
  | leaf text isLeaf =>
    cases d' with
    | group inside =>
      have hinside := inside?_text_group inside
      rw [← h, show (leaf text isLeaf).text = text from rfl, inside?_leaf isLeaf] at hinside
      exact absurd hinside (by simp)
    | leaf text' isLeaf' =>
      obtain rfl : text = text' := h
      rfl

/-! ### Balanced texts have a derivation -/

/-- What is free of the loosest operator, and of those looser still, can be derived one level
below. -/
theorem free_tighter {operator : Operator} {cs : List CodePoint} (h : Free operator.sign 0 cs)
    (hlooser : ∀ other ∉ operator :: operators, Free other.sign 0 cs) :
    ∀ other ∉ operators, Free other.sign 0 cs := by
  intro other hother
  by_cases heq : other = operator
  · exact heq ▸ h
  · exact hlooser other (List.not_mem_cons_of_ne_of_not_mem heq hother)

/-- A balanced text without the looser operators outside parentheses has a derivation at the level
of the remaining ones. The recursion is on the text, and at one text on the level. -/
theorem exists_derivation_of_free (operators : List Operator) (cs : List CodePoint)
    (hdepth : depthAfter 0 cs = some 0)
    (hfree : ∀ operator ∉ operators, Free operator.sign 0 cs) :
    ∃ d : Derivation operators, d.text = cs := by
  match operators with
  | [] =>
    by_cases hgroup : ∃ inside, inside? cs = some inside
    · obtain ⟨inside, hinside⟩ := hgroup
      obtain ⟨rfl, hinner⟩ := inside?_eq_some_iff.1 hinside
      obtain ⟨d, rfl⟩ := exists_derivation_of_free Operator.byLooseness inside hinner
        fun operator h ↦ absurd (by cases operator <;> decide) h
      exact ⟨group d, rfl⟩
    · have hleaf : IsLeaf cs := by
        refine ⟨balanced_iff.2 hdepth, fun operator l r h ↦ ?_, fun inside h ↦ ?_⟩
        · rw [← Bool.not_eq_true, balanced_iff]
          exact hfree operator List.not_mem_nil l r h
        · rw [← Bool.not_eq_true, balanced_iff]
          exact fun hinner ↦ hgroup ⟨inside, inside?_eq_some_iff.2 ⟨h, hinner⟩⟩
      exact ⟨leaf cs hleaf, rfl⟩
  | operator :: operators =>
    by_cases hsplit : Free operator.sign 0 cs
    · obtain ⟨d, rfl⟩ := exists_derivation_of_free operators cs hdepth (free_tighter hsplit hfree)
      exact ⟨tighter d, rfl⟩
    · -- left of the first occurrence there is none, so that side goes one level down
      obtain ⟨l, r, rfl, hl, hlfree⟩ := exists_first_of_not_free hdepth hsplit
      have hr : depthAfter 0 r = some 0 := by
        rw [depthAfter_append, hl, Option.bind_some, depthAfter_cons, nextDepth_sign] at hdepth
        exact hdepth
      have hparts := fun other h ↦ (free_append hl).1 (hfree other h)
      obtain ⟨left, rfl⟩ := exists_derivation_of_free operators l hl
        (free_tighter hlfree fun other h ↦ (hparts other h).1)
      obtain ⟨right, rfl⟩ := exists_derivation_of_free (operator :: operators) r hr fun other h ↦
        (free_cons.1 (hparts other h).2).2 0 (nextDepth_sign operator 0)
      exact ⟨split left right, rfl⟩
  termination_by (cs.length, operators.length)

/-- The derived texts are the balanced ones, and each has exactly one derivation. -/
theorem balanced_iff_existsUnique_derivation {cs : List CodePoint} :
    balanced cs = true ↔ ∃! d : Derivation Operator.byLooseness, d.text = cs := by
  constructor
  · intro h
    obtain ⟨d, rfl⟩ := exists_derivation_of_free Operator.byLooseness cs (balanced_iff.1 h)
      fun operator h ↦ absurd (by cases operator <;> decide) h
    exact ⟨d, rfl, fun d' h' ↦ eq_of_text_eq (by decide) d' d h'⟩
  · rintro ⟨d, rfl, -⟩
    exact d.balanced_text

end Derivation

end Metrology
