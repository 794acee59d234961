import Metrology.Text.Raw

/-!
# The words of a command line

Splitting words into options and arguments by the rules of a command. Words are raw texts, since the
bytes of a word need not be a text.

An option is a long word, two dashes and a name, or a short one, a dash and a letter. Short options
can share a word. A value stands in the word of its option, after an equals sign or right after the
letter, or else it is the next word, whatever that looks like. Two dashes alone end the options, and
a dash alone is an argument.

## Unknown options

A command either refuses unknown options or takes them as arguments, which lets negative numbers
through. Known letters that share a word with unknown ones are options still; the unknown letters
together are then one argument.
-/

namespace Metrology.CommandLine

/-- An option that a command knows. -/
structure OptionRule where
  name : String
  letter : Option Char := none
  takesValue : Bool := false
deriving DecidableEq, Repr

/-- The rules by which the words of a command are split. -/
structure WordRules where
  options : List OptionRule
  /-- Unknown options are arguments. -/
  lenient : Bool := false
  /-- Options may follow arguments. -/
  mixed : Bool := true
deriving DecidableEq, Repr

/-- Words that have been split: options by name, each with its value or an empty one, and arguments,
both in order. -/
structure Words where
  options : List (String × RawText) := []
  arguments : List RawText := []
deriving DecidableEq, Repr

namespace Words

/-- The option is there. -/
def has (w : Words) (name : String) : Bool := w.options.any fun entry ↦ entry.1 = name

/-- The last value of an option. -/
def value? (w : Words) (name : String) : Option RawText := w.options.reverse.lookup name

/-- Words with others before them. -/
def after (w : Words) (options : List (String × RawText)) (arguments : List RawText) : Words :=
  { options := options ++ w.options, arguments := arguments ++ w.arguments }

end Words

/-! ### One word -/

/-- What a word says that has the form of an option. -/
structure WordReading where
  options : List (String × RawText) := []
  arguments : List RawText := []
  /-- The option whose value is the next word. -/
  awaiting : Option String := none
deriving DecidableEq, Repr

/-- A word of the form of an option: a dash and more. -/
def isOptionWord (word : RawText) : Bool :=
  match word.points with
  | .char '-' :: _ :: _ => true
  | _ => false

/-- A word of the form of a long option. -/
def isLongWord (word : RawText) : Bool :=
  match word.points with
  | .char '-' :: .char '-' :: _ => true
  | _ => false

/-- The known option of a long word. -/
def WordRules.long? (rules : WordRules) (word : RawText) : Option OptionRule :=
  rules.options.find? fun option ↦ .ofString ("--" ++ option.name) = word

/-- The known option of a letter. -/
def WordRules.short? (rules : WordRules) (letter : CodePoint) : Option OptionRule :=
  rules.options.find? fun option ↦ option.letter.map CodePoint.char = some letter

/-- A long word whose option is known. -/
def readLong? (option : OptionRule) (value : Option RawText) : Option WordReading :=
  match option.takesValue, value with
  | true, some value => some { options := [(option.name, value)] }
  | true, none => some { awaiting := some option.name }
  | false, none => some { options := [(option.name, "")] }
  | false, some _ => none

/-- The letters after a dash: what they say, and the unknown ones. -/
def readLetters? (rules : WordRules) : List CodePoint → Option (WordReading × List CodePoint)
  | [] => some ({}, [])
  | letter :: rest =>
    match rules.short? letter with
    | none =>
      if rules.lenient then
        (readLetters? rules rest).map fun (reading, unknown) ↦ (reading, letter :: unknown)
      else none
    | some option =>
      if !option.takesValue then
        (readLetters? rules rest).map fun (reading, unknown) ↦
          ({ reading with options := (option.name, "") :: reading.options }, unknown)
      else if rest.isEmpty then some ({ awaiting := some option.name }, [])
      else some ({ options := [(option.name, ⟨rest⟩)] }, [])

/-- The part of a word before its first equals sign, and the part after it. -/
def splitValue (word : RawText) : RawText × Option RawText :=
  match word.points.span (· != .char '=') with
  | (stem, []) => (⟨stem⟩, none)
  | (stem, _ :: value) => (⟨stem⟩, some ⟨value⟩)

/-- Reads a word of the form of an option. Whole words are looked for before letters. -/
def readOptionWord? (rules : WordRules) (word : RawText) : Option WordReading :=
  let (stem, value) := splitValue word
  match rules.long? stem with
  | some option => readLong? option value
  | none =>
    if isLongWord word then if rules.lenient then some { arguments := [word] } else none
    else (readLetters? rules word.points.tail).map fun (reading, unknown) ↦
      if unknown.isEmpty then reading
      else { reading with arguments := [⟨.char '-' :: unknown⟩] }

/-! ### All words -/

/-- Splits words, if all are used by the rules. -/
def split? (rules : WordRules) : List RawText → Option Words
  | [] => some {}
  | word :: rest =>
    if word = "--" then some { arguments := rest }
    else if !isOptionWord word then
      if rules.mixed then (split? rules rest).map (·.after [] [word])
      else some { arguments := word :: rest }
    else
      match readOptionWord? rules word with
      | none => none
      | some reading =>
        match reading.awaiting, rest with
        | none, rest => (split? rules rest).map (·.after reading.options reading.arguments)
        | some name, value :: rest =>
          (split? rules rest).map (·.after (reading.options ++ [(name, value)]) reading.arguments)
        | some _, [] => none

/-- Words without dashes before them are arguments, whatever the rules. -/
theorem split?_of_arguments {rules : WordRules} (hmixed : rules.mixed = true) {words : List RawText}
    (h : ∀ word ∈ words, isOptionWord word = false ∧ word ≠ "--") :
    split? rules words = some { arguments := words } := by
  induction words with
  | nil => rfl
  | cons word rest ih =>
    have hword := h word (by simp)
    have hrest := ih fun other hother ↦ h other (by simp [hother])
    simp [split?, hword.1, hword.2, hmixed, hrest, Words.after]

end Metrology.CommandLine
