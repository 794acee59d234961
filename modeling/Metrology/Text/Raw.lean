/-!
# Raw texts

Texts as they are typed, read from files, and come out of escapes and code points that were given by
number. Two halves of a surrogate pair stand for one character; a half that stands alone stands for
none, or for a byte that is no text. A raw text may hold such halves, and then it can be compared
and quoted, but not written.

A proper text has none. It is taken as a raw one wherever that is expected.
-/

namespace Metrology

/-- A code point: a character, or half a surrogate pair on its own. -/
inductive CodePoint where
  | char (c : Char)
  | half (unit : Nat) (isHalf : 0xd800 ≤ unit ∧ unit < 0xe000 := by decide)
deriving DecidableEq, Repr

namespace CodePoint

instance : Coe Char CodePoint := ⟨char⟩

/-- The number of a code point. -/
def value : CodePoint → Nat
  | char c => c.toNat
  | half unit _ => unit

/-- The code point of a number. -/
def ofNat? (n : Nat) : Option CodePoint :=
  if h : n.isValidChar then some (char (Char.ofNatAux n h))
  else if h : 0xd800 ≤ n ∧ n < 0xe000 then some (half n h)
  else none

/-- The character of a code point. -/
def char? : CodePoint → Option Char
  | char c => some c
  | half _ _ => none

theorem value_injective : Function.Injective value := by
  have hchar : ∀ c : Char, c.toNat < 0xd800 ∨ 0xe000 ≤ c.toNat := fun c ↦
    c.valid.imp id fun h ↦ Nat.lt_of_succ_le h.1
  rintro (c | ⟨m, hm⟩) (d | ⟨n, hn⟩) h
  · exact congrArg char (Char.toNat_inj.1 h)
  · have hvalue : c.toNat = n := h
    have := hchar c
    omega
  · have hvalue : m = d.toNat := h
    have := hchar d
    omega
  · obtain rfl : m = n := h
    rfl

end CodePoint

/-- A text that may hold halves of surrogate pairs. -/
structure RawText where
  points : List CodePoint
deriving DecidableEq, Repr, Inhabited

namespace RawText

def ofString (text : String) : RawText := ⟨text.toList.map .char⟩

instance : Coe String RawText := ⟨ofString⟩

instance : Append RawText := ⟨fun s t ↦ ⟨s.points ++ t.points⟩⟩

def isEmpty (t : RawText) : Bool := t.points.isEmpty

theorem points_injective : Function.Injective points := fun _ _ ↦ congrArg mk

/-- Texts one after the other, with another one between them. -/
def join (separator : RawText) (parts : List RawText) : RawText :=
  ⟨separator.points.intercalate (parts.map points)⟩

/-- The characters of code points, if all are characters. -/
def chars? : List CodePoint → Option (List Char)
  | [] => some []
  | .char c :: rest => (chars? rest).map (c :: ·)
  | .half _ _ :: _ => none

/-- The text itself, if it can be written. -/
def toString? (t : RawText) : Option String := (chars? t.points).map String.ofList

def isWritable (t : RawText) : Bool := t.toString?.isSome

/-- The text with a mark in the place of each half. -/
def shown (t : RawText) : String :=
  String.ofList (t.points.map fun point ↦ (point.char?).getD '\ufffd')

/-! ### Order -/

/-- The numbers of the code points. -/
def values (t : RawText) : List Nat := t.points.map CodePoint.value

/-- Texts are ordered by their code points, a beginning before the whole. -/
instance : LE RawText := ⟨fun s t ↦ s.values.le t.values⟩

instance : LT RawText := ⟨fun s t ↦ s.values.lt t.values⟩

instance : DecidableLE RawText := fun s t ↦ List.decidableLE s.values t.values

instance : DecidableLT RawText := fun s t ↦ List.decidableLT s.values t.values

theorem values_injective : Function.Injective values := by
  rintro ⟨s⟩ ⟨t⟩ h
  exact congrArg mk (List.map_inj_right (fun _ _ hvalue ↦ CodePoint.value_injective hvalue) |>.1 h)

protected theorem le_trans {s t u : RawText} (hst : s ≤ t) (htu : t ≤ u) : s ≤ u :=
  List.le_trans (show s.values.le t.values from hst) htu

protected theorem le_total (s t : RawText) : s ≤ t ∨ t ≤ s := List.le_total s.values t.values

protected theorem le_antisymm {s t : RawText} (hst : s ≤ t) (hts : t ≤ s) : s = t :=
  values_injective (List.le_antisymm hst hts)

protected theorem lt_of_le_of_ne {s t : RawText} (h : s ≤ t) (hne : s ≠ t) : s < t :=
  Decidable.not_not.1 fun hlt ↦ hne (RawText.le_antisymm h (List.not_lt.1 hlt))

/-! ### Proper texts -/

theorem chars?_map_char (cs : List Char) : chars? (cs.map .char) = some cs := by
  induction cs with
  | nil => rfl
  | cons c cs ih => simp [chars?, ih]

theorem chars?_eq_some_iff {points : List CodePoint} {cs : List Char} :
    chars? points = some cs ↔ points = cs.map .char := by
  refine ⟨fun h ↦ ?_, fun h ↦ h ▸ chars?_map_char cs⟩
  induction points generalizing cs with
  | nil => rw [← Option.some.inj h, List.map_nil]
  | cons point points ih =>
    cases point with
    | half => exact absurd h (by simp [chars?])
    | char c =>
      obtain ⟨rest, hrest, rfl⟩ := Option.map_eq_some_iff.1 h
      rw [ih hrest, List.map_cons]

/-- Every proper text can be written, as itself. -/
@[simp] theorem toString?_ofString (text : String) : (ofString text).toString? = some text := by
  simp [toString?, ofString, chars?_map_char]

/-- What can be written is a proper text. -/
theorem toString?_eq_some_iff {t : RawText} {text : String} :
    t.toString? = some text ↔ t = ofString text := by
  refine ⟨fun h ↦ ?_, fun h ↦ h ▸ toString?_ofString text⟩
  obtain ⟨cs, hcs, rfl⟩ := Option.map_eq_some_iff.1 h
  rw [ofString, String.toList_ofList, ← chars?_eq_some_iff.1 hcs]

theorem ofString_injective : Function.Injective ofString := by
  intro s t h
  have hsome := congrArg toString? h
  rwa [toString?_ofString, toString?_ofString, Option.some_inj] at hsome

@[simp] theorem isWritable_ofString (text : String) : (ofString text).isWritable = true := by
  rw [isWritable, toString?_ofString, Option.isSome_some]

@[simp] theorem points_append (s t : RawText) : (s ++ t).points = s.points ++ t.points := rfl

theorem isEmpty_eq_false_iff {t : RawText} : t.isEmpty = false ↔ t ≠ ofString "" := by
  obtain ⟨_ | ⟨point, points⟩⟩ := t
  · exact iff_of_false Bool.noConfusion (· rfl)
  · exact iff_of_true rfl nofun

theorem isEmpty_append_of_right {t : RawText} (s : RawText) (h : t ≠ ofString "") :
    (s ++ t).isEmpty = false := by
  refine isEmpty_eq_false_iff.2 fun hempty ↦ h (points_injective ?_)
  exact (List.append_eq_nil_iff.1 (congrArg points hempty)).2

theorem append_assoc (s t u : RawText) : s ++ t ++ u = s ++ (t ++ u) :=
  congrArg mk (List.append_assoc s.points t.points u.points)

theorem append_nil (t : RawText) : t ++ ⟨[]⟩ = t := congrArg mk (List.append_nil t.points)

theorem nil_append (t : RawText) : ⟨[]⟩ ++ t = t := rfl

theorem chars?_append (s t : List CodePoint) :
    chars? (s ++ t) = (chars? s).bind fun cs ↦ (chars? t).map (cs ++ ·) := by
  induction s with
  | nil => simp [chars?]
  | cons point s ih =>
    cases point with
    | half => rfl
    | char c =>
      rw [List.cons_append, chars?, chars?, ih]
      cases chars? s <;> cases chars? t <;> rfl

/-- Texts one after the other can be written if both can. -/
theorem toString?_append (s t : RawText) :
    (s ++ t).toString? = s.toString?.bind fun text ↦ t.toString?.map (text ++ ·) := by
  rw [toString?, points_append, chars?_append, toString?, toString?]
  cases chars? s.points with
  | none => rfl
  | some cs =>
    cases chars? t.points with
    | none => rfl
    | some ds => exact congrArg some String.ofList_append

@[simp] theorem isWritable_append (s t : RawText) :
    (s ++ t).isWritable = (s.isWritable && t.isWritable) := by
  rw [isWritable, toString?_append, isWritable, isWritable]
  cases s.toString? <;> cases t.toString? <;> rfl

theorem ofString_append (s t : String) : ofString (s ++ t) = ofString s ++ ofString t := by
  show (⟨_⟩ : RawText) = ⟨_ ++ _⟩
  rw [ofString, ofString, String.toList_append, List.map_append]

end RawText

end Metrology
